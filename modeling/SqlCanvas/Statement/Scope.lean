import SqlCanvas.Query.Basic
import SqlCanvas.Text.LetterCase
import SqlCanvas.Text.Word

/-!
# Scopes

What the names in a statement stand for. A table is known under its full name, under the last part
of its name and under its alias, in any letter case; a later table takes over the names it shares
with an earlier one. A name that is not known stands for the anchor, the table behind `FROM`.
-/

namespace SqlCanvas

open Text

/-- Names in lower case with the ids of their tables, latest first. -/
abbrev Lookup := List (Text × String)

namespace Lookup

def find? (lookup : Lookup) (name : Text) : Option String :=
  (List.find? (·.1 == lower name) lookup).map (·.2)

def insert (lookup : Lookup) (name : Text) (id : String) : Lookup :=
  (lower name, id) :: lookup

/-- The last part of a name that has points in it. -/
def lastPart (name : Text) : Text :=
  match cutAtLast? '.' name with
  | some (_, last) => last
  | none => name

/-- Enters a table under all its names. -/
def register (lookup : Lookup) (name : Text) (aliasName : Option Text) (id : String) : Lookup :=
  let named := (lookup.insert name id).insert (lastPart name) id
  match aliasName with
  | some a => named.insert a id
  | none => named

theorem find?_insert_self (lookup : Lookup) {name other : Text} (id : String)
    (h : lower other = lower name) : (lookup.insert name id).find? other = some id := by
  simp [find?, insert, h]

theorem find?_insert_of_ne (lookup : Lookup) {name other : Text} (id : String)
    (h : lower other ≠ lower name) : (lookup.insert name id).find? other = lookup.find? other := by
  have : (lower name == lower other) = false := by simpa using h.symm
  simp [find?, insert, this]

end Lookup

structure Scope where
  lookup : Lookup
  anchor : Option String

namespace Scope

def empty : Scope := ⟨[], none⟩

/-- The table a qualifier stands for. -/
def table (scope : Scope) (qualifier : Text) : Option String :=
  (scope.lookup.find? qualifier).or scope.anchor

/-- The table and the column that a reference stands for. Calls and positions (`2`) belong to no
table, and neither does a bare name that is the alias of a selected column, given in lower case. -/
def resolve (scope : Scope) (aliases : List Text) (reference : Text) : Option String × Text :=
  let reference := reference.trim
  if reference.contains '(' || (!reference.isEmpty && reference.all isDigit) then (none, reference)
  else
    match cutAtLast? '.' reference with
    | some (qualifier, column) => (scope.table qualifier, column)
    | none =>
      if lower reference ∈ aliases then (none, reference) else (scope.anchor, reference)

end Scope

end SqlCanvas
