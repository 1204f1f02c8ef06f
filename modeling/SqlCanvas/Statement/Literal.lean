import SqlCanvas.Nesting.Basic
import SqlCanvas.Number.Reading
import SqlCanvas.Pattern.Occurrence
import SqlCanvas.Statement.Error
import SqlCanvas.Text.Quoted

/-!
# Literals

The value that a piece of SQL text stands for: a string without its quotes, a number, a truth value
or null. Any other text is kept as a string.
-/

namespace SqlCanvas.Literal

open Text Pattern

/-- A whole number: sign under 1, digits under 2. -/
def integer : Pattern :=
  .all [.textStart, .maybe (.capture 1 (.exactly '-')), .capture 2 digits, .textEnd]

/-- A number with a point: sign under 1, digits before the point under 2, behind it under 3. -/
def fractional : Pattern :=
  .all [.textStart, .maybe (.capture 1 (.exactly '-')),
    .oneOf [
      .all [.capture 2 digits, .exactly '.', .capture 3 (.many isDecimal)],
      .all [.exactly '.', .capture 3 digits]],
    .textEnd]

/-- The text between two equal quotes, each doubled quote in it read as one. -/
def unquote? (t : Text) : Option Text :=
  match t with
  | quote :: rest =>
    if Nesting.isQuote quote ∧ rest.getLast? = some quote then
      some (undoubleQuotes quote rest.dropLast)
    else none
  | [] => none

/-- The words that stand for values, in any case. -/
def word? (t : Text) : Option Scalar :=
  match String.ofList (upper t) with
  | "NULL" => some .null
  | "TRUE" => some (.bool true)
  | "FALSE" => some (.bool false)
  | _ => none

def signed (negative : Bool) (n : Nat) : Int :=
  if negative then -(n : Int) else n

def read (t : Text) : Except ReadError Scalar :=
  match unquote? t with
  | some s => .ok (.string (String.ofList s))
  | none =>
    match word? t with
    | some value => .ok value
    | none =>
      match integer.match? t with
      | some m => do
        let n ← readWhole (m.captured 2)
        return .int (signed (m.capture? 1).isSome n)
      | none =>
        match fractional.match? t with
        | some m =>
          .ok (.float (.ofDigits (m.capture? 1).isSome (m.captured 2) (m.captured 3) 0))
        | none => .ok (.string (String.ofList t))

end SqlCanvas.Literal
