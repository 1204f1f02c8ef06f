import SqlCanvas.Query.Basic
import SqlCanvas.Query.Error
import SqlCanvas.Text.Quoted

/-!
# Predicates as SQL

How values and predicates are written. A string stands in single quotes, with each single quote
inside it doubled; dates and times are written as strings in ISO form. A list as the value of an
operator other than `IN` and `NOT IN` has no SQL form and is shown as a list of quoted values.

`sql` gives the text with numbers of any length. `write` gives it only if every number in it may be
written.
-/

namespace SqlCanvas

open Text

def quotedLiteral (t : Text) : Text :=
  '\'' :: doubleQuotes '\'' t ++ ['\'']

/-- Dates and times need no doubling, as they have no quotes. -/
def plainLiteral (t : Text) : Text :=
  '\'' :: t ++ ['\'']

def Scalar.sql : Scalar → Text
  | .null => "NULL".toList
  | .bool true => "TRUE".toList
  | .bool false => "FALSE".toList
  | .int n => Numeral.ofInt n
  | .float x => x.text
  | .string s => quotedLiteral s.toList
  | .date d => plainLiteral d.iso
  | .moment m => plainLiteral m.iso
  | .clock c => plainLiteral c.iso

def Datum.sql : Datum → Text
  | .scalar x => x.sql
  | d => d.quoted

def Scalar.write (x : Scalar) : Except GenerationError Text :=
  writing x.numerals x.sql

def Datum.write (d : Datum) : Except GenerationError Text :=
  writing d.numerals d.sql

/-- The shapes that a predicate can have in SQL. -/
inductive PredicateShape where
  /-- The operator alone: `column IS NULL`. -/
  | bare
  /-- Two ends: `column BETWEEN low AND high`. -/
  | range
  /-- A parenthesised list: `column IN (…)`. -/
  | membership
  /-- A raw query text behind the operator, without a column. -/
  | existence
  /-- One value: `column = value`. -/
  | binary
  deriving DecidableEq

def FilterOperator.shape : FilterOperator → PredicateShape
  | .isNull | .isNotNull => .bare
  | .between | .notBetween => .range
  | .isIn | .notIn => .membership
  | .exists | .notExists => .existence
  | _ => .binary

/-- Operators outside the vocabulary are written like comparisons. -/
def operatorShape (operator : String) : PredicateShape :=
  match Vocabulary.read? (α := FilterOperator) operator with
  | some o => o.shape
  | none => .binary

/-- The values of a list, or the one value. -/
def Datum.alternatives : Datum → List Datum
  | .list items => items
  | d => [d]

def writePredicate (shape : PredicateShape) (column operator : Text) (value value2 : Datum) :
    Text :=
  match shape with
  | .bare => column ++ ' ' :: operator
  | .range =>
    column ++ ' ' :: operator ++ ' ' :: value.sql ++ " AND ".toList ++ value2.sql
  | .membership =>
    column ++ ' ' :: operator ++ ' ' :: '(' ::
      [',', ' '].intercalate (value.alternatives.map Datum.sql) ++ [')']
  | .existence => operator ++ ' ' :: value.displayed
  | .binary => column ++ ' ' :: operator ++ ' ' :: value.sql

/-- The whole numbers in the text of a predicate, in order. -/
def predicateNumerals (shape : PredicateShape) (value value2 : Datum) : List Int :=
  match shape with
  | .bare => []
  | .range => value.numerals ++ value2.numerals
  | .membership | .existence | .binary => value.numerals

/-- A predicate on a column that is already written out. -/
def predicateSql (column operator : String) (value value2 : Datum) : String :=
  String.ofList <|
    writePredicate (operatorShape operator) column.toList operator.toList value value2

def predicateWrite (column operator : String) (value value2 : Datum) :
    Except GenerationError String :=
  writing (predicateNumerals (operatorShape operator) value value2)
    (predicateSql column operator value value2)

theorem operatorShape_spelling (o : FilterOperator) :
    operatorShape (Vocabulary.spelling o) = o.shape := by
  simp [operatorShape, FilterOperator.read?_spelling]

end SqlCanvas
