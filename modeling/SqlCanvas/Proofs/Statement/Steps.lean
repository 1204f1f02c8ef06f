import SqlCanvas.Statement.Select

/-!
# The steps of reading a SELECT

The reader of everything behind the joins is a chain of steps that may fail, each on its own part of
the text. `readRest_eq` shows the chain with the step for the selected columns set apart.
-/

namespace SqlCanvas.Select

open Text

def aggregateOf (m : Match) : Except ReadError Aggregate :=
  if (m.capture? 2).isSome then .ok .countDistinct
  else readKeyword "SelectedColumn" "aggregate_function" (m.captured 1)

def argumentTable (scope : Scope) (m : Match) : Option String :=
  match m.capture? 3 with
  | some qualifier => scope.table qualifier
  | none => scope.anchor

theorem readAggregate_eq (scope : Scope) (m : Match) :
    readAggregate scope m = (aggregateOf m).map fun aggregate =>
      { tableId := (argumentTable scope m).getD ""
        columnName := String.ofList (m.captured 4)
        aliasName := optionalString (m.capture? 5)
        aggregate := some aggregate
        expression := none } := by
  rw [readAggregate, aggregateOf]
  split
  · rfl
  · cases readKeyword (α := Aggregate) "SelectedColumn" "aggregate_function" (m.captured 1) <;> rfl

def readColumns (scope : Scope) : Option Text → Except ReadError (List SelectedColumn)
  | some text => if text = ['*'] then .ok [] else text.splitCommas.mapM (readColumn scope)
  | none => .ok []

def tickedTables (columnsText : Option Text) (tables : List TableRef) : List TableRef :=
  if columnsText = some ['*'] then tables.map fun table => { table with selectedColumns := ["*"] }
  else tables

/-- The parts of a query behind its joins, as far as they can fail. -/
structure Rest where
  columns : List SelectedColumn
  filters : Option FilterGroup
  having : Option FilterGroup
  limits : RowLimits

def readParts (scope : Scope) (columnsText : Option Text) (clauses : Clauses) :
    Except ReadError Rest := do
  let columns ← readColumns scope columnsText
  let filters ← readFilter? scope (clauses.body? "WHERE")
  let having ← readFilter? scope (clauses.body? "HAVING")
  let limits ← readRowLimits clauses
  return ⟨columns, filters, having, limits⟩

def assemble (head : Option Match) (columnsText : Option Text) (clauses : Clauses)
    (sources : Sources) (rest : Rest) : Query :=
  let aliases := aliasesOf rest.columns
  { Query.empty with
    tables := tickedTables columnsText sources.tables
    joins := sources.joins
    selectedColumns := rest.columns
    filters := rest.filters
    groupBy :=
      grouping ((clauses.body? "GROUP BY").map (groupColumns sources.scope aliases)) rest.having
    orderBy := (clauses.body? "ORDER BY").map (orderItems sources.scope aliases)
    limit := rest.limits.limit
    offset := rest.limits.offset
    distinct := (head.bind (·.capture? 1)).isSome }

theorem readRest_eq (t : Text) (anchor : Option Occurrence) (clauses : Clauses)
    (sources : Sources) : readRest t anchor clauses sources =
      let head := selectHead.match? t
      let columnsText := columnsText? t head anchor
      (readParts sources.scope columnsText clauses).map
        (assemble head columnsText clauses sources) := by
  have star (text : Text) : (some text == some ['*']) = decide (text = ['*']) := by
    by_cases h : text = ['*'] <;> simp [h]
  simp only [readRest, readParts]
  cases hc : columnsText? t (selectHead.match? t) anchor with
  | none =>
    simp only [readColumns, bind, Except.bind]
    cases readFilter? sources.scope (clauses.body? "WHERE") <;>
      cases readFilter? sources.scope (clauses.body? "HAVING") <;>
        cases readRowLimits clauses <;> rfl
  | some text =>
    simp only [readColumns, star, decide_eq_true_eq]
    split
    · rename_i ht
      subst ht
      simp only [bind, Except.bind]
      cases readFilter? sources.scope (clauses.body? "WHERE") <;>
        cases readFilter? sources.scope (clauses.body? "HAVING") <;>
          cases readRowLimits clauses <;> rfl
    · rename_i ht
      have ticked (tables : List TableRef) : tickedTables (some text) tables = tables :=
        if_neg (by simpa using ht)
      simp only [bind, Except.bind]
      cases text.splitCommas.mapM (readColumn sources.scope) <;>
        cases readFilter? sources.scope (clauses.body? "WHERE") <;>
          cases readFilter? sources.scope (clauses.body? "HAVING") <;>
            cases readRowLimits clauses <;> simp only [Except.map, assemble, ticked]
      rfl

end SqlCanvas.Select
