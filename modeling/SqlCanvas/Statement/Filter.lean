import SqlCanvas.Nesting.Split
import SqlCanvas.Statement.Keyword
import SqlCanvas.Statement.Literal
import SqlCanvas.Statement.Scope

/-!
# Reading filters

A filter is read as alternatives of conjunctions: it is split at `OR` and then at `AND`, outside
quotes and parentheses, where the `AND` of a range belongs to the range. A conjunct that is itself
an `AND` or `OR` expression in parentheses is left out, and so is one that is no predicate.
-/

namespace SqlCanvas

open Text Pattern

namespace Filter

def orWord : Pattern := .all [blank, word "OR", blank]

def andWord : Pattern := .all [blank, word "AND", blank]

def betweenWord : Pattern := .all [.boundary, word "BETWEEN", .boundary]

def splitOr (t : Text) : List Text :=
  t.splitTopLevel orWord

def splitAnd (t : Text) : List Text :=
  t.splitTopLevel andWord

def isRangeStart (piece : Text) : Bool :=
  (piece.findTopLevel? betweenWord).isSome

/-- Puts the two halves of each range together again. A range at the end may lack its second
half. -/
def joinRanges : List Text → List Text
  | [] => []
  | [piece] => [piece]
  | piece :: next :: pieces =>
    if isRangeStart piece then (piece ++ " AND ".toList ++ next) :: joinRanges pieces
    else piece :: joinRanges (next :: pieces)

/-- The parts of a conjunction, each range in one part. -/
def splitConjuncts (t : Text) : List Text :=
  joinRanges (splitAnd t)

/-- `EXISTS` or `NOT EXISTS` under 1, the query text under 2. -/
def existence : Pattern :=
  .all [.textStart, .capture 1 (.oneOf [phrase ["NOT", "EXISTS"], word "EXISTS"]), blanks,
    .capture 2 (.many1 anything), .textEnd]

/-- A call, or a name with or without a qualifier. -/
def operand : Pattern :=
  .oneOf [
    .all [name, blanks, .exactly '(', .many fun c => c != '(' && c != ')', .exactly ')'],
    identifier]

/-- The operators that are words, each up to a word boundary. -/
def wordOperators : List Pattern :=
  [["NOT", "BETWEEN"], ["BETWEEN"], ["IS", "NOT", "NULL"], ["IS", "NULL"], ["NOT", "LIKE"],
    ["LIKE"], ["NOT", "IN"], ["IN"]].map fun words => .seq (phrase words) .boundary

/-- The comparison signs; of two signs that start alike the longer comes first. -/
def signs : List String := ["<=", ">=", "<>", "!=", "=", "<", ">"]

def sign (s : String) : Pattern :=
  .all (s.toList.map exactly)

/-- The operand under 1, the operator under 2, the text behind it under 3. -/
def predicate : Pattern :=
  .all [.textStart, .capture 1 operand, blanks,
    .capture 2 (.oneOf (wordOperators ++ signs.map sign)), blanks,
    .maybe (.capture 3 (.many1 anything)), .textEnd]

/-- The comparison that a sign stands for; `<>` is another spelling of `!=`. -/
def comparison? (s : String) : Option Comparison :=
  if s = "<>" then some .ne else Vocabulary.read? s

/-- The text with one space on either side of its first `AND`. -/
def normaliseFirstAnd (t : Text) : Text :=
  match andWord.occurrences t with
  | [] => t
  | o :: _ => t.take o.start ++ " AND ".toList ++ t.drop o.stop

/-- The value behind an operator. Lists and ranges are kept as text. -/
def readValue (operator : Option FilterOperator) (raw : Option Text) :
    Except ReadError Scalar :=
  match raw, operator with
  | none, _ => .ok .null
  | some _, some .isNull | some _, some .isNotNull => .ok .null
  | some t, some .isIn | some t, some .notIn => .ok (.string (String.ofList t.trim.stripParens))
  | some t, some .between | some t, some .notBetween =>
    .ok (.string (String.ofList (normaliseFirstAnd t.trim)))
  | some t, _ => Literal.read t.trim

def operator? (keyword : String) : Option FilterOperator :=
  match comparison? keyword with
  | some c => some (.compare c)
  | none => Vocabulary.read? keyword

/-- The condition that a text states, if it states one. -/
def readCondition (scope : Scope) (t : Text) : Except ReadError (Option FilterCondition) :=
  match existence.match? t with
  | some m => do
    let operator ← readKeyword "FilterCondition" "operator" (m.captured 1)
    return some {
      tableId := none
      column := ""
      operator := operator
      value := .string (String.ofList (m.captured 2).trim)
      value2 := .null }
  | none =>
    match predicate.match? t with
    | none => .ok none
    | some m => do
      let keyword := canonicalKeyword (m.captured 2)
      let operator := operator? keyword
      let (table, column) := scope.resolve [] (m.captured 1)
      let value ← readValue operator (m.capture? 3)
      match operator with
      | none => throw (.foreign FilterOperator "FilterCondition" "operator" keyword)
      | some operator =>
        return some {
          tableId := table
          column := String.ofList column
          operator := operator
          value := .scalar value
          value2 := .null }

/-- Whether a text without its outer parentheses has no connective at its top level. -/
def isAtomic (t : Text) : Bool :=
  (splitOr t).length ≤ 1 && (splitConjuncts t).length ≤ 1

/-- The conditions that some conjuncts state, in order. -/
def readConditions (scope : Scope) (conjuncts : List Text) :
    Except ReadError (List FilterCondition) := do
  let atoms := (conjuncts.map stripParens).filter isAtomic
  let conditions ← atoms.mapM (readCondition scope)
  return conditions.filterMap id

/-- One alternative: its condition, or a group of its conditions where it has several conjuncts. -/
def readBranch (scope : Scope) (branch : Text) : Except ReadError (List FilterNode) := do
  let conjuncts := splitConjuncts branch.stripParens
  let conditions ← readConditions scope conjuncts
  return if 1 < conjuncts.length then [.group .and (conditions.map .condition)]
    else conditions.map .condition

def read (scope : Scope) (t : Text) : Except ReadError FilterGroup :=
  let text := t.stripParens
  let branches := splitOr text
  if 1 < branches.length then do
    let children ← branches.mapM (readBranch scope)
    return ⟨.or, children.flatten⟩
  else do
    let conditions ← readConditions scope (splitConjuncts text)
    return ⟨.and, conditions.map .condition⟩

end Filter

end SqlCanvas
