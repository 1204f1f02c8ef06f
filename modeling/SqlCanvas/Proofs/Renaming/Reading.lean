import SqlCanvas.Proofs.Renaming.Query
import SqlCanvas.Proofs.Statement.Steps

/-!
# Reading in a scope with other ids

When the ids in a scope are replaced, everything that is read in it comes out with the same ids
replaced. Names are looked up by their text, so any function on ids will do there. Only the `ON`
clause of a join compares ids, and an empty id counts as none: there the function has to keep ids
apart and the empty id as it is.
-/

namespace SqlCanvas

open Text

theorem Except.map_map {ε α β γ : Type} (f : α → β) (g : β → γ) (x : Except ε α) :
    (x.map f).map g = x.map (g ∘ f) := by
  cases x <;> rfl

theorem mapM_map_except {ε α β γ : Type} {f : α → Except ε β} {f' : α → Except ε γ} {change : β → γ}
    (h : ∀ a, f' a = (f a).map change) (xs : List α) :
    xs.mapM f' = (xs.mapM f).map (List.map change) := by
  induction xs with
  | nil => rfl
  | cons x xs ih =>
    rw [List.mapM_cons, List.mapM_cons, ih, h]
    cases f x with
    | error e => rfl
    | ok y => cases xs.mapM f <;> rfl

/-- Replaces ids in such a way that no two are mixed up, and leaves the empty id as it is. -/
structure Renames (f : String → String) : Prop where
  injective : Function.Injective f
  empty : f "" = ""

theorem Renames.nonempty?_map {f : String → String} (h : Renames f) (x : Option String) :
    nonempty? (x.map f) = (nonempty? x).map f := by
  cases x with
  | none => rfl
  | some id =>
    have : f id = "" ↔ id = "" := h.injective.eq_iff' h.empty
    simp only [Option.map_some, nonempty?, this]
    split <;> rfl

theorem Renames.getD_map {f : String → String} (h : Renames f) (x : Option String) :
    (x.map f).getD "" = f (x.getD "") := by
  cases x with
  | none => exact h.empty.symm
  | some id => rfl

def Lookup.renamed (f : String → String) (lookup : Lookup) : Lookup :=
  lookup.map fun entry => (entry.1, f entry.2)

def Scope.renamed (f : String → String) (scope : Scope) : Scope :=
  ⟨scope.lookup.renamed f, scope.anchor.map f⟩

variable {f : String → String}

theorem Lookup.find?_renamed (lookup : Lookup) (name : Text) :
    (lookup.renamed f).find? name = (lookup.find? name).map f := by
  rw [find?, find?, renamed, List.find?_map, Option.map_map, Option.map_map]
  rfl

theorem Lookup.register_renamed (lookup : Lookup) (name : Text) (aliasName : Option Text)
    (id : String) :
    (lookup.register name aliasName id).renamed f = (lookup.renamed f).register name aliasName
    (f id) := by
  cases aliasName <;> rfl

namespace Scope

theorem table_renamed (scope : Scope) (qualifier : Text) :
    (scope.renamed f).table qualifier = (scope.table qualifier).map f := by
  rw [table, table, renamed, Lookup.find?_renamed, Option.map_or]

theorem resolve_renamed (scope : Scope) (aliases : List Text) (reference : Text) :
    (scope.renamed f).resolve aliases reference =
      ((scope.resolve aliases reference).1.map f, (scope.resolve aliases reference).2) := by
  simp only [resolve, table_renamed]
  split
  · rfl
  · cases cutAtLast? '.' reference.trim with
    | some cut => rfl
    | none =>
      simp only
      split <;> rfl

end Scope

namespace Filter

theorem readCondition_renamed (scope : Scope) (t : Text) :
    readCondition (scope.renamed f) t = (readCondition scope t).map (Option.map (·.renamed f)) := by
  rw [readCondition, readCondition]
  cases existence.match? t with
  | some m =>
    simp only
    cases readKeyword (α := FilterOperator) "FilterCondition" "operator" (m.captured 1) <;> rfl
  | none =>
    cases predicate.match? t with
    | none => rfl
    | some m =>
      simp only [Scope.resolve_renamed]
      cases readValue (operator? (canonicalKeyword (m.captured 2))) (m.capture? 3) with
      | error e => rfl
      | ok value => cases operator? (canonicalKeyword (m.captured 2)) <;> rfl

theorem readConditions_renamed (scope : Scope) (conjuncts : List Text) :
    readConditions (scope.renamed f) conjuncts =
      (readConditions scope conjuncts).map (List.map (·.renamed f)) := by
  rw [readConditions, readConditions, mapM_map_except (readCondition_renamed scope)]
  cases ((conjuncts.map stripParens).filter isAtomic).mapM (readCondition scope) with
  | error e => rfl
  | ok found =>
    refine congrArg Except.ok ?_
    rw [List.filterMap_map, List.map_filterMap]
    exact List.filterMap_congr fun c _ => by cases c <;> rfl

theorem readBranch_renamed (scope : Scope) (branch : Text) :
    readBranch (scope.renamed f) branch = (readBranch scope branch).map (FilterNode.mapAll f) := by
  rw [readBranch, readBranch, readConditions_renamed]
  cases readConditions scope (splitConjuncts branch.stripParens) with
  | error e => rfl
  | ok conditions =>
    refine congrArg Except.ok ?_
    have renamed : FilterNode.mapAll f (conditions.map .condition) =
        (conditions.map (·.renamed f)).map .condition := FilterNode.mapAll_conditions f conditions
    simp only [← renamed]
    split <;> rfl

theorem read_renamed (scope : Scope) (t : Text) :
    read (scope.renamed f) t = (read scope t).map (·.renamed f) := by
  simp only [read, readConditions_renamed, mapM_map_except (readBranch_renamed scope)]
  split
  · cases (splitOr t.stripParens).mapM (readBranch scope) with
    | error e => rfl
    | ok children =>
      have flat : (children.map (FilterNode.mapAll f)).flatten =
          FilterNode.mapAll f children.flatten := by
        rw [FilterNode.mapAll_eq_map, List.map_flatten]
        exact congrArg List.flatten (List.map_congr_left fun ns _ => FilterNode.mapAll_eq_map f ns)
      exact congrArg (fun ns => Except.ok (FilterGroup.mk .or ns)) flat
  · cases readConditions scope (splitConjuncts t.stripParens) with
    | error e => rfl
    | ok conditions =>
      exact congrArg (fun ns => Except.ok (FilterGroup.mk .and ns))
        (FilterNode.mapAll_conditions f conditions).symm

end Filter

namespace Select

theorem readFilter?_renamed (scope : Scope) (t : Option Text) :
    readFilter? (scope.renamed f) t = (readFilter? scope t).map (Option.map (·.renamed f)) := by
  cases t with
  | none => rfl
  | some t =>
    rw [readFilter?, readFilter?, Filter.read_renamed]
    cases Filter.read scope t <;> rfl

theorem groupColumns_renamed (scope : Scope) (aliases : List Text) (t : Text) :
    groupColumns (scope.renamed f) aliases t = (groupColumns scope aliases t).map
      (·.renamed f) := by
  rw [groupColumns, groupColumns, List.map_map]
  refine List.map_congr_left fun item _ => ?_
  simp only [groupColumn, Scope.resolve_renamed, Function.comp_apply]
  rfl

theorem orderItems_renamed (scope : Scope) (aliases : List Text) (t : Text) :
    orderItems (scope.renamed f) aliases t = (orderItems scope aliases t).map (·.renamed f) := by
  rw [orderItems, orderItems, List.map_filterMap]
  refine List.filterMap_congr fun item _ => ?_
  simp only [readOrderItem?, Scope.resolve_renamed]
  cases orderItem.match? item with
  | none => rfl
  | some m =>
    simp only [Option.bind_eq_bind, Option.bind_some]
    cases m.capture? 2 with
    | none => rfl
    | some keyword =>
      simp only
      cases Vocabulary.read? (α := Direction) (canonicalKeyword keyword) <;> rfl

section Columns

variable (hf : Renames f)

include hf

theorem expressionColumn_renamed (scope : Scope) (item : Text) :
    expressionColumn (scope.renamed f) item = (expressionColumn scope item).renamed f := by
  simp only [expressionColumn, SelectedColumn.renamed, Scope.renamed, hf.getD_map]

theorem readAggregate_renamed (scope : Scope) (m : Match) :
    readAggregate (scope.renamed f) m = (readAggregate scope m).map (·.renamed f) := by
  have table : argumentTable (scope.renamed f) m = (argumentTable scope m).map f := by
    rw [argumentTable, argumentTable]
    cases m.capture? 3 with
    | some qualifier => exact scope.table_renamed qualifier
    | none => rfl
  rw [readAggregate_eq, readAggregate_eq, table, hf.getD_map, Except.map_map]
  rfl

theorem readColumn_renamed (scope : Scope) (item : Text) :
    readColumn (scope.renamed f) item = (readColumn scope item).map (·.renamed f) := by
  rw [readColumn, readColumn]
  cases qualifiedItem.match? item with
  | some m =>
    simp only [Scope.table_renamed, hf.getD_map]
    rfl
  | none =>
    cases bareItem.match? item with
    | some m =>
      simp only [Scope.renamed, hf.getD_map]
      rfl
    | none =>
      cases aggregateItem.match? item with
      | none => exact congrArg Except.ok (expressionColumn_renamed hf scope item)
      | some m =>
        simp only
        split
        · exact readAggregate_renamed hf scope m
        · exact congrArg Except.ok (expressionColumn_renamed hf scope item)

theorem readColumns_renamed (scope : Scope) (columnsText : Option Text) :
    readColumns (scope.renamed f) columnsText =
      (readColumns scope columnsText).map (List.map (·.renamed f)) := by
  cases columnsText with
  | none => rfl
  | some text =>
    rw [readColumns, readColumns]
    split
    · rfl
    · exact mapM_map_except (readColumn_renamed hf scope) _

end Columns

theorem aliasesOf_renamed (columns : List SelectedColumn) :
    aliasesOf (columns.map (·.renamed f)) = aliasesOf columns := by
  rw [aliasesOf, aliasesOf, List.filterMap_map]
  rfl

theorem tickedTables_renamed (columnsText : Option Text) (tables : List TableRef) :
    tickedTables columnsText (tables.map (·.renamed f)) =
      (tickedTables columnsText tables).map (·.renamed f) := by
  rw [tickedTables, tickedTables]
  split
  · rw [List.map_map, List.map_map]
    rfl
  · rfl

def Rest.renamed (f : String → String) (rest : Rest) : Rest :=
  ⟨rest.columns.map (·.renamed f), rest.filters.map (·.renamed f), rest.having.map (·.renamed f),
    rest.limits⟩

def Sources.renamed (f : String → String) (sources : Sources) : Sources :=
  ⟨sources.tables.map (·.renamed f), sources.joins.map (·.renamed f f), sources.scope.renamed f⟩

theorem readParts_renamed (hf : Renames f) (scope : Scope) (columnsText : Option Text)
    (clauses : Clauses) : readParts (scope.renamed f) columnsText clauses =
      (readParts scope columnsText clauses).map (·.renamed f) := by
  simp only [readParts, readColumns_renamed hf, readFilter?_renamed]
  cases readColumns scope columnsText with
  | error e => rfl
  | ok columns =>
    cases readFilter? scope (clauses.body? "WHERE") with
    | error e => rfl
    | ok filters =>
      cases readFilter? scope (clauses.body? "HAVING") with
      | error e => rfl
      | ok having => cases readRowLimits clauses <;> rfl

theorem grouping_renamed (columns : Option (List GroupColumn)) (having : Option FilterGroup) :
    grouping (columns.map (List.map (·.renamed f))) (having.map (·.renamed f)) =
      (grouping columns having).map (·.renamed f) := by
  have node (group : FilterGroup) : (group.renamed f).toNode = group.toNode.mapTables f := by
    rw [FilterGroup.toNode, FilterGroup.toNode, FilterNode.mapTables]
    rfl
  cases columns <;> cases having <;> simp [grouping, GroupClause.renamed, node]

theorem assemble_renamed (head : Option Match) (columnsText : Option Text) (clauses : Clauses)
    (sources : Sources) (rest : Rest) :
    assemble head columnsText clauses (sources.renamed f) (rest.renamed f) =
      (assemble head columnsText clauses sources rest).renamed f f := by
  have groups : grouping ((clauses.body? "GROUP BY").map
        (groupColumns (sources.scope.renamed f) (aliasesOf rest.columns)))
          (rest.having.map (·.renamed f)) =
      (grouping
        ((clauses.body? "GROUP BY").map (groupColumns sources.scope (aliasesOf rest.columns)))
        rest.having).map (·.renamed f) := by
    rw [← grouping_renamed, Option.map_map]
    exact congrArg (grouping · _) (Option.map_congr fun t _ => groupColumns_renamed _ _ t)
  have order : (clauses.body? "ORDER BY").map
        (orderItems (sources.scope.renamed f) (aliasesOf rest.columns)) =
      ((clauses.body? "ORDER BY").map (orderItems sources.scope (aliasesOf rest.columns))).map
        fun items => items.map (·.renamed f) := by
    rw [Option.map_map]
    exact Option.map_congr fun t _ => orderItems_renamed _ _ t
  rw [Query.renamed_eq]
  simp only [assemble, Rest.renamed, Sources.renamed, aliasesOf_renamed, tickedTables_renamed,
    groups, order, Query.renamedOwn, Query.recast, Query.empty, Query.renamedTables,
      Query.renamedBranches]

theorem readRest_renamed (hf : Renames f) (t : Text) (anchor : Option Occurrence)
    (clauses : Clauses) (sources : Sources) :
    readRest t anchor clauses (sources.renamed f) =
      (readRest t anchor clauses sources).map (·.renamed f f) := by
  rw [readRest_eq, readRest_eq]
  simp only
  have parts :=
    readParts_renamed hf sources.scope (columnsText? t (selectHead.match? t) anchor) clauses
  rw [show (sources.renamed f).scope = sources.scope.renamed f from rfl, parts, Except.map_map,
    Except.map_map]
  congr 1
  funext rest
  exact assemble_renamed _ _ _ _ _

def OnPredicate.renamed (f : String → String) (p : OnPredicate) : OnPredicate :=
  { p with left := p.left.map f, right := p.right.map f }

theorem OnPredicate.read?_renamed (lookup : Lookup) (t : Text) :
    read? (lookup.renamed f) t = (read? lookup t).map (·.renamed f) := by
  rw [read?, read?]
  cases joinPredicate.match? t.stripParens with
  | none => rfl
  | some m =>
    simp only [Option.bind_eq_bind, Option.bind_some, Lookup.find?_renamed]
    cases Filter.comparison? (String.ofList (m.captured 3)) <;> rfl

theorem OnPredicate.oriented_renamed (hf : Renames f) (p : OnPredicate) (joined : String) :
    (p.renamed f).oriented (f joined) = (p.oriented joined).renamed f := by
  -- Here reading compares two ids; elsewhere it compares an id with the empty one at most.
  have same (x : Option String) : x.map f = some (f joined) ↔ x = some joined := by
    rw [← Option.map_some, (Option.map_injective hf.injective).eq_iff]
  have isSome : (p.renamed f).right.isSome = p.right.isSome := Option.isSome_map
  rw [oriented, oriented, isSome]
  simp only [renamed, ne_eq, same]
  split <;> rfl

theorem sourceTable_renamed (hf : Renames f) (anchor : Option String) (ps : List OnPredicate) :
    sourceTable (anchor.map f) (ps.map (·.renamed f)) = (sourceTable anchor ps).map f := by
  induction ps with
  | nil => rfl
  | cons p ps ih =>
    rw [List.map_cons, sourceTable, sourceTable, ih, OnPredicate.renamed, hf.nonempty?_map]
    rw [Option.map_or, Option.map_or]

theorem readOn_renamed (hf : Renames f) (scope : Scope) (joined : String) (segment : Text) :
    readOn (scope.renamed f) (f joined) segment =
      ((readOn scope joined segment).1, (readOn scope joined segment).2.map f) := by
  rw [readOn, readOn]
  cases onClause.match? segment with
  | none => rfl
  | some m =>
    have predicates : (((Filter.splitAnd (m.captured 1).stripParens).filterMap
          (OnPredicate.read? (scope.lookup.renamed f))).map (·.oriented (f joined))) =
        (((Filter.splitAnd (m.captured 1).stripParens).filterMap
          (OnPredicate.read? scope.lookup)).map (·.oriented joined)).map (·.renamed f) := by
      rw [show OnPredicate.read? (scope.lookup.renamed f) = fun t =>
          (OnPredicate.read? scope.lookup t).map (·.renamed f) from
        funext (OnPredicate.read?_renamed scope.lookup), ← List.map_filterMap, List.map_map,
          List.map_map]
      exact List.map_congr_left fun p _ => OnPredicate.oriented_renamed hf p joined
    simp only [Scope.renamed, predicates, sourceTable_renamed hf, hf.nonempty?_map, Option.map_or]
    rw [List.map_map]
    rfl

end Select

end SqlCanvas
