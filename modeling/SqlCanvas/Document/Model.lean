import SqlCanvas.Document.Dump
import SqlCanvas.Document.Load

/-!
# Kinds of models

Every kind of model by its name. Reading a document as a kind of model and writing it again gives
its normal form: all fields present, under their own names, with values of their own types.
-/

namespace SqlCanvas

/-- The normal form of a document under each kind of model. The first kind has no fields. -/
def models : List (String × (Datum → Checked Datum)) :=
  [("IRModel", Check.model "IRModel" fun _ => .ok (.record [])),
    ("TableRef", fun d => TableRef.dump <$> TableRef.load d),
    ("JoinCondition", fun d => JoinCondition.dump <$> JoinCondition.load d),
    ("Join", fun d => Join.dump <$> Join.load d),
    ("FilterCondition", fun d => FilterCondition.dump <$> FilterCondition.load d),
    ("FilterGroup", fun d => FilterGroup.dump <$> FilterGroup.load d),
    ("SelectedColumn", fun d => SelectedColumn.dump <$> SelectedColumn.load d),
    ("GroupByColumn", fun d => GroupColumn.dump <$> GroupColumn.load d),
    ("GroupByClause", fun d => GroupClause.dump <$> GroupClause.load d),
    ("OrderByClause", fun d => OrderItem.dump <$> OrderItem.load d),
    ("CommonTableExpression", fun d => CommonTable.dump <$> CommonTable.load d),
    ("UnionClause", fun d => SetBranch.dump <$> SetBranch.load d),
    ("Query", fun d => Query.dump <$> Query.load d),
    ("InsertFragment", fun d => InsertFragment.dump <$> InsertFragment.load d),
    ("SetAssignment", fun d => Assignment.dump <$> Assignment.load d),
    ("UpdateFragment", fun d => UpdateFragment.dump <$> UpdateFragment.load d),
    ("DeleteFragment", fun d => DeleteFragment.dump <$> DeleteFragment.load d),
    ("CreateTableFragment", fun d => CreateTableFragment.dump <$> CreateTableFragment.load d),
    ("AlterTableFragment", fun d => AlterTableFragment.dump <$> AlterTableFragment.load d),
    ("DropTableFragment", fun d => DropTableFragment.dump <$> DropTableFragment.load d),
    ("TruncateFragment", fun d => TruncateFragment.dump <$> TruncateFragment.load d),
    ("ParsedQuery", fun d => Statement.dump <$> Statement.load d)]

/-- The normal form of a document under the kind of model with a given name, if there is one. -/
def normalForm? (model : String) (d : Datum) : Option (Checked Datum) :=
  (models.find? (·.1 == model)).map fun m => m.2 d

end SqlCanvas
