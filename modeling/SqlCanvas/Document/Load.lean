import SqlCanvas.Document.Checked
import SqlCanvas.Query.Basic
import SqlCanvas.Statement.Basic

/-!
# Models from documents

Reading a model from a document. Fields may be written in either spelling, unknown fields are
ignored, and missing fields have defaults where the model gives one. A filter node tells by its
`kind` whether it is a condition or a group.
-/

namespace SqlCanvas

open Check

def TableRef.load : Datum → Checked TableRef :=
  model "TableRef" fun r =>
    .mk <$> required r "id" string <*> required r "name" string <*> optional r "alias" string <*>
      defaulted r "selectedColumns" [] (list string)

def JoinCondition.load : Datum → Checked JoinCondition :=
  model "JoinCondition" fun r =>
    .mk <$> required r "fromColumn" string <*> required r "toColumn" string <*>
      defaulted r "operator" .eq (spelled Comparison)

def Join.load : Datum → Checked Join :=
  model "Join" fun r =>
    .mk <$> required r "id" string <*> required r "fromTableId" string <*>
      required r "toTableId" string <*> defaulted r "joinType" .inner (spelled JoinKind) <*>
      defaulted r "conditions" [] (list JoinCondition.load)

namespace FilterValue

/-- The kinds of value other than null that a condition may hold, with the word for each in a
message. -/
def kinds : List (String × String) :=
  [("bool", "boolean"), ("int", "integer"), ("float", "number"), ("datetime", "datetime"),
    ("date", "date"), ("time", "time"), ("str", "string")]

def kindFaults : List Fault :=
  kinds.map fun (kind, word) => ⟨[kind], "Input should be a valid " ++ word⟩

/-- The step in the way of a fault that stands for the list form of a value. -/
def listStep : String :=
  "list[nullable[union[" ++ ",".intercalate (kinds.map (·.1)) ++ "]]]"

end FilterValue

/-- Scalars are kept as they are; a string is not taken for anything else. -/
def Scalar.load : Datum → Checked Scalar
  | .scalar x => .ok x
  | _ => .faulty FilterValue.kindFaults

/-- What is not a value of any kind gets one fault for each kind, and those of its items where it is
a list. -/
def FilterValue.load : Datum → Checked FilterValue
  | .scalar x => .ok (.scalar x)
  | d =>
    match (Check.list Scalar.load d).under listStep with
    | .ok xs => .ok (.list xs)
    | .faulty faults => .faulty (kindFaults ++ faults)

def FilterCondition.ofFields (r : Fields) : Checked FilterCondition :=
  (fun _ => .mk) <$> defaulted r "kind" () (literal "condition") <*> optional r "tableId" string <*>
    required r "column" string <*> defaulted r "operator" (.compare .eq)
      (spelled FilterOperator) <*>
    defaulted r "value" .null FilterValue.load <*> defaulted r "value2" .null Scalar.load

def FilterCondition.load : Datum → Checked FilterCondition :=
  model "FilterCondition" FilterCondition.ofFields

def FilterGroup.ofParts (_ : Unit) (operator : Connective) (children : List FilterNode) :
    FilterGroup :=
  ⟨operator, children⟩

/-- The fields of a group, given a reader for its children. -/
def FilterGroup.ofFields (r : Fields)
    (node : (d : Datum) → sizeOf d < sizeOf r → Checked FilterNode) : Checked FilterGroup :=
  FilterGroup.ofParts <$> defaulted r "kind" () (literal "group") <*>
    defaulted r "operator" .and (spelled Connective) <*>
    defaultedBy r "children" [] fun d hd => listBy d fun x hx => node x (by omega)

namespace FilterNode

def expectedKinds : String := "'condition', 'group'"

/-- Reads a node along its kind. -/
def load : Datum → Checked FilterNode
  | .record r =>
    match Fields.get? r "kind" with
    | none => .fault "Unable to extract tag using discriminator 'kind'"
    | some (.scalar (.string "condition")) =>
      (.condition <$> FilterCondition.ofFields r).under "condition"
    | some (.scalar (.string "group")) =>
      (FilterGroup.toNode <$> FilterGroup.ofFields r fun d _ => load d).under "group"
    | some kind =>
      .fault ("Input tag '" ++ String.ofList kind.displayed ++
        "' found using 'kind' does not match any of the expected tags: " ++ expectedKinds)
  | _ => .fault "Input should be a valid dictionary or object to extract fields from"
termination_by d => sizeOf d
decreasing_by
  simp only [Datum.record.sizeOf_spec]
  omega

end FilterNode

def FilterGroup.load : Datum → Checked FilterGroup :=
  model "FilterGroup" fun r => FilterGroup.ofFields r fun d _ => FilterNode.load d

def SelectedColumn.load : Datum → Checked SelectedColumn :=
  model "SelectedColumn" fun r =>
    .mk <$> required r "tableId" string <*> required r "columnName" string <*>
      optional r "alias" string <*> optional r "aggregateFunction" (spelled Aggregate) <*>
      optional r "expression" string

def GroupColumn.load : Datum → Checked GroupColumn :=
  model "GroupByColumn" fun r =>
    .mk <$> optional r "tableId" string <*> required r "columnName" string

def GroupClause.load : Datum → Checked GroupClause :=
  model "GroupByClause" fun r =>
    .mk <$> defaulted r "columns" [] (list GroupColumn.load) <*> optional r "having" FilterNode.load

def OrderItem.load : Datum → Checked OrderItem :=
  model "OrderByClause" fun r =>
    .mk <$> optional r "tableId" string <*> required r "columnName" string <*>
      defaulted r "direction" .ascending (spelled Direction)

def CommonTable.loadWith (d : Datum)
    (query : (x : Datum) → sizeOf x < sizeOf d → Checked Query) : Checked (CommonTable Query) :=
  modelBy "CommonTableExpression" d fun r hr =>
    .mk <$> required r "name" string <*>
      requiredBy r "query" (fun x hx => query x (Nat.lt_trans hx hr)) <*>
      defaulted r "recursive" false bool

def SetBranch.loadWith (d : Datum)
    (query : (x : Datum) → sizeOf x < sizeOf d → Checked Query) : Checked (SetBranch Query) :=
  modelBy "UnionClause" d fun r hr =>
    .mk <$> defaulted r "kind" .union (spelled SetOperation) <*>
      requiredBy r "query" fun x hx => query x (Nat.lt_trans hx hr)

/-- An optional list of parts, each with a reader that may use that it is smaller than the
record. -/
def optionalListBy {α : Type} (r : Fields) (name : String)
    (load : (x : Datum) → sizeOf x < sizeOf r → Checked α) : Checked (Option (List α)) :=
  defaultedBy r name none fun d hd =>
    nullableBy d fun _ => listBy d fun x hx => load x (Nat.lt_trans hx hd)

/-- The fields of a query, given a reader for nested queries. -/
def Query.ofFields (r : Fields)
    (query : (x : Datum) → sizeOf x < sizeOf r → Checked Query) : Checked Query :=
  .mk <$> optional r "name" string <*> optional r "description" string <*>
    defaulted r "tables" [] (list TableRef.load) <*> defaulted r "joins" [] (list Join.load) <*>
    defaulted r "selectedColumns" [] (list SelectedColumn.load) <*>
    optional r "filters" FilterGroup.load <*> optional r "groupBy" GroupClause.load <*>
    optional r "orderBy" (list OrderItem.load) <*> optional r "limit" rowCount <*>
    optional r "offset" rowCount <*> defaulted r "distinct" false bool <*>
    optionalListBy r "ctes" (fun d hd =>
      CommonTable.loadWith d fun x hx => query x (Nat.lt_trans hx hd)) <*>
    optionalListBy r "unions" fun d hd =>
      SetBranch.loadWith d fun x hx => query x (Nat.lt_trans hx hd)

def Query.load (d : Datum) : Checked Query :=
  modelBy "Query" d fun r _ => Query.ofFields r fun x _ => Query.load x
termination_by sizeOf d

def CommonTable.load (d : Datum) : Checked (CommonTable Query) :=
  CommonTable.loadWith d fun x _ => Query.load x

def SetBranch.load (d : Datum) : Checked (SetBranch Query) :=
  SetBranch.loadWith d fun x _ => Query.load x

def InsertFragment.load : Datum → Checked InsertFragment :=
  model "InsertFragment" fun r =>
    .mk <$> required r "table" string <*> defaulted r "columns" [] (list string) <*>
      defaulted r "values" [] (list (list string))

def Assignment.load : Datum → Checked Assignment :=
  model "SetAssignment" fun r =>
    .mk <$> required r "column" string <*> required r "value" string

def UpdateFragment.load : Datum → Checked UpdateFragment :=
  model "UpdateFragment" fun r =>
    .mk <$> required r "table" string <*> defaulted r "sets" [] (list Assignment.load)

def DeleteFragment.load : Datum → Checked DeleteFragment :=
  model "DeleteFragment" fun r => .mk <$> required r "table" string

def CreateTableFragment.load : Datum → Checked CreateTableFragment :=
  model "CreateTableFragment" fun r =>
    .mk <$> required r "name" string <*> defaulted r "temporary" false bool <*>
      defaulted r "ifNotExists" false bool <*>
      defaulted r "columnDefinitions" [] (list string) <*> defaulted r "columnsRaw" "" string

def AlterTableFragment.load : Datum → Checked AlterTableFragment :=
  model "AlterTableFragment" fun r =>
    .mk <$> required r "table" string <*> required r "action" string <*>
      defaulted r "definition" "" string

def DropTableFragment.load : Datum → Checked DropTableFragment :=
  model "DropTableFragment" fun r =>
    .mk <$> required r "table" string <*> defaulted r "ifExists" false bool <*>
      defaulted r "cascade" false bool

def TruncateFragment.load : Datum → Checked TruncateFragment :=
  model "TruncateFragment" fun r => .mk <$> required r "table" string

def Statement.load : Datum → Checked Statement :=
  model "ParsedQuery" fun r =>
    .mk <$> Query.ofFields r (fun x _ => Query.load x) <*>
      defaulted r "statementType" .select (spelled StatementKind) <*>
      optional r "insertInto" InsertFragment.load <*>
      optional r "updateTable" UpdateFragment.load <*>
      optional r "deleteFrom" DeleteFragment.load <*>
      optional r "createTable" CreateTableFragment.load <*>
      optional r "alterTable" AlterTableFragment.load <*>
      optional r "dropTable" DropTableFragment.load <*>
      optional r "truncateTable" TruncateFragment.load

end SqlCanvas
