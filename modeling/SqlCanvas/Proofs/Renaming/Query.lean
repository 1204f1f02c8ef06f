import Mathlib.Data.List.Find
import SqlCanvas.Proofs.Query.Omission
import SqlCanvas.Proofs.Regeneration.Predicate

/-!
# Queries with other ids

Nothing that is written of a query hangs on what its ids look like. When the ids are replaced, and
ids that differ still differ, the text stays the same, and so do the findings up to the ids that
they name. It is enough that each id the query refers to is kept apart from the other ids of its
tables.
-/

namespace SqlCanvas

/-- The id is not mixed up with that of another table. -/
def Keeps (f : String → String) (tables : List TableRef) (id : String) : Prop :=
  ∀ t ∈ tables, f t.id = f id → t.id = id

theorem keeps_of_injective {f : String → String} (hf : Function.Injective f)
    (tables : List TableRef) (id : String) : Keeps f tables id :=
  fun _ _ h => hf h

def TableRef.renamed (f : String → String) (t : TableRef) : TableRef :=
  { t with id := f t.id }

/-- The table is known by another id and otherwise written as before. -/
structure Relabels (f : String → String) (change : TableRef → TableRef) : Prop where
  id : ∀ t, (change t).id = f t.id
  name : ∀ t, (change t).name = t.name
  aliasName : ∀ t, (change t).aliasName = t.aliasName

theorem relabels_renamed (f : String → String) : Relabels f (·.renamed f) :=
  ⟨fun _ => rfl, fun _ => rfl, fun _ => rfl⟩

def Join.renamed (f g : String → String) (j : Join) : Join :=
  { j with id := g j.id, fromTableId := f j.fromTableId, toTableId := f j.toTableId }

def SelectedColumn.renamed (f : String → String) (c : SelectedColumn) : SelectedColumn :=
  { c with tableId := f c.tableId }

def FilterCondition.renamed (f : String → String) (c : FilterCondition) : FilterCondition :=
  { c with tableId := c.tableId.map f }

def FilterGroup.renamed (f : String → String) (group : FilterGroup) : FilterGroup :=
  ⟨group.operator, FilterNode.mapAll f group.children⟩

def GroupColumn.renamed (f : String → String) (c : GroupColumn) : GroupColumn :=
  { c with tableId := c.tableId.map f }

def GroupClause.renamed (f : String → String) (group : GroupClause) : GroupClause :=
  ⟨group.columns.map (·.renamed f), group.having.map (·.mapTables f)⟩

def OrderItem.renamed (f : String → String) (o : OrderItem) : OrderItem :=
  { o with tableId := o.tableId.map f }

namespace Query

/-- Other tables for those of a query by itself, with other ids for what refers to them and for its
joins. -/
def recast (change : TableRef → TableRef) (f g : String → String) (q : Query) : Query :=
  { q with
    tables := q.tables.map change
    joins := q.joins.map (·.renamed f g)
    selectedColumns := q.selectedColumns.map (·.renamed f)
    filters := q.filters.map (·.renamed f)
    groupBy := q.groupBy.map (·.renamed f)
    orderBy := q.orderBy.map fun items => items.map (·.renamed f) }

def renamedOwn (f g : String → String) (q : Query) : Query :=
  q.recast (·.renamed f) f g

mutual

/-- Other ids for tables by `f` and for joins by `g`, here and in the queries inside. -/
def renamed (f g : String → String) : Query → Query
  | q@⟨_, _, _, _, _, _, _, _, _, _, _, ctes, unions⟩ =>
    { q.renamedOwn f g with
      ctes := renamedTables f g ctes
      unions := renamedBranches f g unions }

def renamedTables (f g : String → String) :
    Option (List (CommonTable Query)) → Option (List (CommonTable Query))
  | none => none
  | some cs => some (renamedEach f g cs)

def renamedEach (f g : String → String) : List (CommonTable Query) → List (CommonTable Query)
  | [] => []
  | ⟨name, query, recursive⟩ :: cs => ⟨name, query.renamed f g, recursive⟩ :: renamedEach f g cs

def renamedBranches (f g : String → String) :
    Option (List (SetBranch Query)) → Option (List (SetBranch Query))
  | none => none
  | some us => some (renamedAll f g us)

def renamedAll (f g : String → String) : List (SetBranch Query) → List (SetBranch Query)
  | [] => []
  | ⟨kind, query⟩ :: us => ⟨kind, query.renamed f g⟩ :: renamedAll f g us

end

/-- Every id in the query by itself is kept apart from the other ids of its tables. -/
structure KeptBy (f : String → String) (q : Query) : Prop where
  tables : ∀ t ∈ q.tables, Keeps f q.tables t.id
  joins : ∀ j ∈ q.joins, Keeps f q.tables j.fromTableId ∧ Keeps f q.tables j.toTableId
  columns : ∀ c ∈ q.selectedColumns, Keeps f q.tables c.tableId
  conditions : ∀ clause, ∀ c ∈ q.conditions clause, ∀ id ∈ c.tableId, Keeps f q.tables id
  groups : ∀ g ∈ q.groupBy, ∀ c ∈ g.columns, ∀ id ∈ c.tableId, Keeps f q.tables id
  order : ∀ items ∈ q.orderBy, ∀ o ∈ items, ∀ id ∈ o.tableId, Keeps f q.tables id

theorem keptBy_of_injective {f : String → String} (hf : Function.Injective f) (q : Query) :
    q.KeptBy f where
  tables _ _ := keeps_of_injective hf _ _
  joins _ _ := ⟨keeps_of_injective hf _ _, keeps_of_injective hf _ _⟩
  columns _ _ := keeps_of_injective hf _ _
  conditions _ _ _ _ _ := keeps_of_injective hf _ _
  groups _ _ _ _ _ _ := keeps_of_injective hf _ _
  order _ _ _ _ _ _ := keeps_of_injective hf _ _

end Query

section Text

variable {f g : String → String} {change : TableRef →
  TableRef} {tables : List TableRef} {id : String}

namespace FilterNode

mutual

theorem conditions_mapTables (f : String → String) : (n : FilterNode) →
    (n.mapTables f).conditions = n.conditions.map (·.renamed f)
  | .condition c => by
    rw [mapTables, conditions, conditions]
    rfl
  | .group operator children => by
    rw [mapTables, conditions, conditions, conditionsAll_mapAll f children]

theorem conditionsAll_mapAll (f : String → String) : (ns : List FilterNode) →
    conditionsAll (mapAll f ns) = (conditionsAll ns).map (·.renamed f)
  | [] => by rw [mapAll, conditionsAll, List.map_nil]
  | n :: ns => by
    rw [mapAll, conditionsAll, conditionsAll, List.map_append, conditions_mapTables f n,
      conditionsAll_mapAll f ns]

end

end FilterNode

theorem Query.conditions_recast (q : Query) (clause : FilterClause) :
    (q.recast change f g).conditions clause = (q.conditions clause).map (·.renamed f) := by
  cases clause with
  | «where» =>
    rw [conditions, conditions, recast]
    cases q.filters with
    | none => rfl
    | some group => exact FilterNode.conditionsAll_mapAll f group.children
  | having =>
    rw [conditions, conditions, recast]
    cases q.groupBy with
    | none => rfl
    | some group =>
      simp only [Option.map_some, Option.bind_some, GroupClause.renamed]
      cases group.having with
      | none => rfl
      | some n => exact FilterNode.conditions_mapTables f n

theorem Relabels.sql (hc : Relabels f change) (t : TableRef) : (change t).sql = t.sql := by
  rw [TableRef.sql, TableRef.sql, hc.name, hc.aliasName]

theorem Relabels.column (hc : Relabels f change) (t : TableRef) (column : String) :
    (change t).column column = t.column column := by
  rw [TableRef.column, TableRef.column, TableRef.reference, TableRef.reference, hc.name,
    hc.aliasName]

theorem findTable?_map (hc : Relabels f change) (h : Keeps f tables id) :
    findTable? (tables.map change) (f id) = (findTable? tables id).map change := by
  -- A look-up compares the id with those of the tables, and this is all that is asked of the new
  -- ids.
  have same : ∀ t ∈ tables.reverse, ((change t).id == f id) = (t.id == id) := by
    intro t ht
    rw [Bool.eq_iff_iff, beq_iff_eq, beq_iff_eq, hc.id]
    exact ⟨h t (List.mem_reverse.mp ht), congrArg f⟩
  rw [findTable?, findTable?, ← List.map_reverse, List.find?_map]
  exact congrArg _ (List.find?_congr same)

theorem SelectedColumn.sql_renamed (hc : Relabels f change) {c : SelectedColumn}
    (h : Keeps f tables c.tableId) : (c.renamed f).sql (tables.map change) = c.sql tables := by
  have body : (c.renamed f).bodySql (tables.map change) = c.bodySql tables := by
    simp only [bodySql, renamed, findTable?_map hc h]
    cases nonempty? c.expression <;> cases findTable? tables c.tableId <;> cases c.aggregate <;>
      simp only [Option.map_none, Option.map_some, hc.column]
  rw [sql, sql, body]
  rfl

theorem JoinCondition.sql_map (hc : Relabels f change) (c : JoinCondition)
    (source target : TableRef) : c.sql (change source) (change target) = c.sql source target := by
  rw [sql, sql, hc.column, hc.column]

def Join.line (j : Join) (source target : TableRef) : String :=
  Vocabulary.spelling j.kind ++ " JOIN " ++ target.sql ++
    if j.conditions.isEmpty then ""
    else " ON " ++ " AND ".intercalate (j.conditions.map (·.sql source target))

theorem Join.sql?_eq (j : Join) (tables : List TableRef) :
    j.sql? tables = (findTable? tables j.fromTableId).bind fun source =>
      (findTable? tables j.toTableId).map (j.line source) := by
  rw [sql?]
  cases findTable? tables j.fromTableId <;> cases findTable? tables j.toTableId <;> rfl

theorem Join.line_renamed (hc : Relabels f change) (j : Join) (source target : TableRef) :
    (j.renamed f g).line (change source) (change target) = j.line source target := by
  have conditions : j.conditions.map (·.sql (change source) (change target)) =
      j.conditions.map (·.sql source target) :=
    List.map_congr_left fun c _ => c.sql_map hc source target
  rw [line, line, hc.sql, renamed, conditions]

theorem Join.sql?_renamed (hc : Relabels f change) {j : Join} (hfrom : Keeps f tables j.fromTableId)
    (hto : Keeps f tables j.toTableId) :
    (j.renamed f g).sql? (tables.map change) = j.sql? tables := by
  rw [sql?_eq, sql?_eq, show (j.renamed f g).fromTableId = f j.fromTableId from rfl,
    show (j.renamed f g).toTableId = f j.toTableId from rfl, findTable?_map hc hfrom,
    findTable?_map hc hto, Option.bind_map]
  refine Option.bind_congr fun source _ => ?_
  rw [Function.comp_apply, Option.map_map]
  exact Option.map_congr fun target _ => j.line_renamed hc source target

theorem FilterCondition.columnSql?_renamed (hc : Relabels f change) {c : FilterCondition}
    (h : ∀ id ∈ c.tableId, Keeps f tables id) :
    (c.renamed f).columnSql? (tables.map change) = c.columnSql? tables := by
  rw [columnSql?, columnSql?, renamed]
  cases hid : c.tableId with
  | none => rfl
  | some id =>
    simp only [Option.map_some, findTable?_map hc (h id hid), Option.map_map]
    exact Option.map_congr fun t _ => hc.column t c.column

theorem FilterCondition.sql?_renamed (hc : Relabels f change) {c : FilterCondition}
    (h : ∀ id ∈ c.tableId, Keeps f tables id) :
    (c.renamed f).sql? (tables.map change) = c.sql? tables := by
  rw [sql?, sql?, columnSql?_renamed hc h]
  rfl

theorem FilterCondition.numerals_renamed (hc : Relabels f change) {c : FilterCondition}
    (h : ∀ id ∈ c.tableId, Keeps f tables id) :
    (c.renamed f).numerals (tables.map change) = c.numerals tables := by
  rw [numerals, numerals, columnSql?_renamed hc h]
  rfl

namespace FilterNode

mutual

theorem sql?_mapTables (hc : Relabels f change) (tables : List TableRef) : (n : FilterNode) →
    (∀ c ∈ n.conditions, ∀ id ∈ c.tableId, Keeps f tables id) →
    (n.mapTables f).sql? (tables.map change) = n.sql? tables
  | .condition c, h => by
    rw [mapTables, sql?, sql?]
    exact FilterCondition.sql?_renamed hc (h c (by simp [conditions]))
  | .group operator children, h => by
    rw [mapTables, sql?, sql?, partsSql_mapAll hc tables children h]

theorem partsSql_mapAll (hc : Relabels f change) (tables : List TableRef) : (ns : List FilterNode) →
    (∀ c ∈ conditionsAll ns, ∀ id ∈ c.tableId, Keeps f tables id) →
    partsSql (tables.map change) (mapAll f ns) = partsSql tables ns
  | [], _ => by rw [mapAll, partsSql, partsSql]
  | .condition c :: ns, h => by
    rw [conditionsAll, List.forall_mem_append, conditions, List.forall_mem_singleton] at h
    have first : _ = c.sql? tables := FilterCondition.sql?_renamed hc h.1
    rw [mapAll, mapTables, partsSql, partsSql, partsSql_mapAll hc tables ns h.2, ← first]
    rfl
  | .group operator children :: ns, h => by
    rw [conditionsAll, List.forall_mem_append, conditions] at h
    rw [mapAll, mapTables, partsSql, partsSql, partsSql_mapAll hc tables ns h.2,
      partsSql_mapAll hc tables children h.1]

end

end FilterNode

theorem qualifiedColumn_renamed (hc : Relabels f change) {table : Option String}
    (h : ∀ id ∈ table, Keeps f tables id) (column : String) :
    qualifiedColumn (tables.map change) (table.map f) column =
      qualifiedColumn tables table column := by
  cases table with
  | none => rfl
  | some id =>
    simp only [qualifiedColumn, findTableOf?, Option.map_some, Option.bind_some,
      findTable?_map hc (h id rfl)]
    cases findTable? tables id with
    | none => rfl
    | some t => exact hc.column t column

namespace Query

variable {q : Query}

theorem selectLine_recast (hc : Relabels f change) (h : q.KeptBy f) :
    (q.recast change f g).selectLine = q.selectLine := by
  have columns : (q.recast change f g).selectedColumns.map (·.sql (q.recast change f g).tables) =
      q.selectedColumns.map (·.sql q.tables) := by
    rw [recast, List.map_map]
    exact List.map_congr_left fun c hmem => SelectedColumn.sql_renamed hc (h.columns c hmem)
  have empty : (q.recast change f g).selectedColumns.isEmpty = q.selectedColumns.isEmpty :=
    List.isEmpty_map
  rw [selectLine, selectLine, columns, empty]
  rfl

theorem joinLines_recast (hc : Relabels f change) (h : q.KeptBy f) :
    (q.recast change f g).joins.filterMap (·.sql? (q.recast change f g).tables) =
      q.joins.filterMap (·.sql? q.tables) := by
  rw [recast, List.filterMap_map]
  exact List.filterMap_congr fun j hj => Join.sql?_renamed hc (h.joins j hj).1 (h.joins j hj).2

theorem whereLine_recast (hc : Relabels f change) (h : q.KeptBy f) :
    (q.recast change f g).whereLine = q.whereLine := by
  have kept := h.conditions .where
  rw [conditions] at kept
  rw [whereLine, whereLine, recast]
  cases hf : q.filters with
  | none => rfl
  | some group =>
    rw [hf] at kept
    have text := FilterNode.sql?_mapTables hc q.tables group.toNode kept
    simp only [Option.map_some, Option.bind_some, FilterGroup.sql?]
    rw [← text, FilterGroup.toNode, FilterGroup.toNode, FilterNode.mapTables]
    rfl

theorem groupLines_recast (hc : Relabels f change) (h : q.KeptBy f) :
    (q.recast change f g).groupLines = q.groupLines := by
  have kept := h.conditions .having
  rw [conditions] at kept
  rw [groupLines, groupLines, recast]
  cases hg : q.groupBy with
  | none => rfl
  | some group =>
    have columns : (group.renamed f).columnsSql (q.tables.map change) =
        group.columnsSql q.tables := by
      rw [GroupClause.columnsSql, GroupClause.columnsSql, GroupClause.renamed, List.map_map]
      exact congrArg commaList (List.map_congr_left fun c hmem =>
        qualifiedColumn_renamed hc (h.groups group hg c hmem) c.columnName)
    have having : (group.renamed f).havingSql? (q.tables.map change) =
        group.havingSql? q.tables := by
      rw [GroupClause.havingSql?, GroupClause.havingSql?, GroupClause.renamed]
      cases hn : group.having with
      | none => rfl
      | some n =>
        rw [hg, Option.bind_some, hn] at kept
        exact FilterNode.sql?_mapTables hc q.tables n kept
    have empty : (group.renamed f).columns.isEmpty = group.columns.isEmpty := List.isEmpty_map
    simp only [Option.map_some, GroupClause.lines, columns, having, empty]

theorem orderLine_recast (hc : Relabels f change) (h : q.KeptBy f) :
    (q.recast change f g).orderLine = q.orderLine := by
  rw [orderLine, orderLine, recast]
  cases ho : q.orderBy with
  | none => rfl
  | some items =>
    have texts : (items.map (·.renamed f)).map (·.sql (q.tables.map change)) =
        items.map (·.sql q.tables) := by
      rw [List.map_map]
      refine List.map_congr_left fun o hmem => ?_
      have := qualifiedColumn_renamed hc (h.order items ho o hmem) o.columnName
      simp only [Function.comp_apply, OrderItem.sql, OrderItem.renamed, this]
    cases items with
    | nil => rfl
    | cons o items => exact congrArg (fun texts => ["ORDER BY " ++ commaList texts]) texts

theorem ownLines_recast (hc : Relabels f change) (h : q.KeptBy f) (d : Dialect)
    (anchor : TableRef) :
    (q.recast change f g).ownLines d (change anchor) = q.ownLines d anchor := by
  rw [ownLines, ownLines, selectLine_recast hc h, joinLines_recast hc h, whereLine_recast hc h,
    groupLines_recast hc h, orderLine_recast hc h, hc.sql]
  rfl

theorem conditionNumerals_recast (hc : Relabels f change) (h : q.KeptBy f) :
    (q.recast change f g).conditionNumerals = q.conditionNumerals := by
  have kept : ∀ c ∈ q.conditions .where ++ q.conditions .having, ∀ id ∈ c.tableId,
      Keeps f q.tables id :=
    List.forall_mem_append.mpr ⟨h.conditions .where, h.conditions .having⟩
  rw [conditionNumerals, conditionNumerals, conditions_recast, conditions_recast, ← List.map_append,
    List.flatMap_map]
  exact List.flatMap_congr fun c hmem => FilterCondition.numerals_renamed hc (kept c hmem)

theorem numerals_recast (hc : Relabels f change) (h : q.KeptBy f) (d : Dialect) :
    (q.recast change f g).numerals d = q.numerals d := by
  rw [numerals_eq, numerals_eq, conditionNumerals_recast hc h]
  rfl

theorem renamed_eq (q : Query) : q.renamed f g =
    { q.renamedOwn f g with
      ctes := renamedTables f g q.ctes
      unions := renamedBranches f g q.unions } := by
  cases q
  rw [renamed]

theorem renamedEach_eq_map (cs : List (CommonTable Query)) :
    renamedEach f g cs = cs.map fun c => { c with query := c.query.renamed f g } := by
  induction cs with
  | nil => rw [renamedEach, List.map_nil]
  | cons c cs ih =>
    obtain ⟨name, query, recursive⟩ := c
    rw [renamedEach, ih, List.map_cons]

theorem renamedAll_eq_map (us : List (SetBranch Query)) :
    renamedAll f g us = us.map fun u => { u with query := u.query.renamed f g } := by
  induction us with
  | nil => rw [renamedAll, List.map_nil]
  | cons u us ih =>
    obtain ⟨kind, query⟩ := u
    rw [renamedAll, ih, List.map_cons]

theorem renamedTables_eq_map (ctes : Option (List (CommonTable Query))) : renamedTables f g ctes =
    ctes.map fun cs => cs.map fun c => { c with query := c.query.renamed f g } := by
  cases ctes with
  | none => rw [renamedTables, Option.map_none]
  | some cs => rw [renamedTables, renamedEach_eq_map, Option.map_some]

theorem renamedBranches_eq_map (unions : Option (List (SetBranch Query))) :
    renamedBranches f g unions =
    unions.map fun us => us.map fun u => { u with query := u.query.renamed f g } := by
  cases unions with
  | none => rw [renamedBranches, Option.map_none]
  | some us => rw [renamedBranches, renamedAll_eq_map, Option.map_some]

theorem tablesSql_map (replace : Query → Query) (d : Dialect) {cs : List (CommonTable Query)}
    (h : ∀ c ∈ cs, (replace c.query).sql d = c.query.sql d) :
    tablesSql d (cs.map fun c => { c with query := replace c.query }) = tablesSql d cs := by
  induction cs with
  | nil => rfl
  | cons c cs ih =>
    obtain ⟨name, query, recursive⟩ := c
    obtain ⟨hc, hcs⟩ := List.forall_mem_cons.mp h
    rw [List.map_cons, tablesSql, tablesSql, hc, ih hcs]

theorem branchesSql_map (replace : Query → Query) (d : Dialect) {us : List (SetBranch Query)}
    (h : ∀ u ∈ us, (replace u.query).sql d = u.query.sql d) :
    branchesSql d (us.map fun u => { u with query := replace u.query }) = branchesSql d us := by
  induction us with
  | nil => rfl
  | cons u us ih =>
    obtain ⟨kind, query⟩ := u
    obtain ⟨hu, hus⟩ := List.forall_mem_cons.mp h
    rw [List.map_cons, branchesSql, branchesSql, hu, ih hus]

theorem withKeyword_map (replace : Query → Query) (cs : List (CommonTable Query)) :
    withKeyword (cs.map fun c => { c with query := replace c.query }) = withKeyword cs := by
  rw [withKeyword, withKeyword, List.any_map]
  rfl

theorem ownLines_holding (q : Query) (ctes : Option (List (CommonTable Query)))
    (unions : Option (List (SetBranch Query))) (d : Dialect) (anchor : TableRef) :
    { q with ctes := ctes, unions := unions }.ownLines d anchor = q.ownLines d anchor := rfl

theorem numerals_holding (q : Query) (ctes : Option (List (CommonTable Query)))
    (unions : Option (List (SetBranch Query))) (d : Dialect) :
    { q with ctes := ctes, unions := unions }.numerals d = q.numerals d := rfl

/-- Queries with the same lines that hold queries with the same text have the same text
themselves. -/
theorem sql_eq_of_parts (change : TableRef → TableRef) (replace : Query → Query) {q r : Query}
    {d : Dialect} (htables : r.tables = q.tables.map change)
    (hlines : ∀ anchor, r.ownLines d (change anchor) = q.ownLines d anchor)
    (hnumerals : r.numerals d = q.numerals d)
    (hctes : r.ctes = q.ctes.map fun cs => cs.map fun c => { c with query := replace c.query })
    (hunions : r.unions = q.unions.map fun us => us.map fun u =>
      { u with query := replace u.query })
    (held : ∀ s, q.Holds s → (replace s).sql d = s.sql d) : r.sql d = q.sql d := by
  have tables : optionalTables d r.ctes = optionalTables d q.ctes := by
    rw [hctes]
    cases hc : q.ctes with
    | none => rfl
    | some cs =>
      rw [Option.map_some, optionalTables, optionalTables, withKeyword_map,
        tablesSql_map replace d fun c hmem => held c.query (.commonTable hc hmem)]
  have branches : optionalBranches d r.unions = optionalBranches d q.unions := by
    rw [hunions]
    cases hu : q.unions with
    | none => rfl
    | some us =>
      rw [Option.map_some, optionalBranches, optionalBranches,
        branchesSql_map replace d fun u hmem => held u.query (.branch hu hmem)]
  rw [sql_eq, sql_eq, htables, tables, branches, hnumerals]
  cases q.tables with
  | nil => rfl
  | cons anchor rest => simp only [List.map_cons, hlines]

/-- The text of a query, or the reason for which there is none, is the same with other ids. -/
theorem sql_renamed_of_injective (hf : Function.Injective f) (g : String → String) (d : Dialect)
    (q : Query) : (q.renamed f g).sql d = q.sql d := by
  induction q using nestedInduction with
  | step q ih =>
    have lines (anchor : TableRef) : (q.renamed f g).ownLines d (anchor.renamed f) =
        q.ownLines d anchor := by
      rw [renamed_eq, ownLines_holding]
      exact ownLines_recast (relabels_renamed f) (keptBy_of_injective hf q) d anchor
    have numerals : (q.renamed f g).numerals d = q.numerals d := by
      rw [renamed_eq, numerals_holding]
      exact numerals_recast (relabels_renamed f) (keptBy_of_injective hf q) d
    refine sql_eq_of_parts (·.renamed f) (·.renamed f g) ?_ lines numerals ?_ ?_ ih
    · rw [renamed_eq]
      rfl
    · rw [renamed_eq, renamedTables_eq_map]
    · rw [renamed_eq, renamedBranches_eq_map]

end Query

end Text

def Finding.renamed (f : String → String) : Finding → Finding
  | .duplicateTable id => .duplicateTable (f id)
  | .filterTable clause column id => .filterTable clause column (f id)
  | .inCommonTable name x => .inCommonTable name (x.renamed f)
  | .inBranch kind index x => .inBranch kind index (x.renamed f)
  | x => x

theorem Finding.renamed_wrap (f : String → String) (s : NestingStep) (x : Finding) :
    (s.wrap x).renamed f = s.wrap (x.renamed f) := by
  cases s <;> rfl

theorem Place.renamed_report (f : String → String) (p : Place) (x : Finding) :
    (p.report x).renamed f = p.report (x.renamed f) := by
  obtain ⟨path, q⟩ := p
  induction path with
  | nil => rfl
  | cons s path ih => exact (Finding.renamed_wrap f s _).trans (congrArg s.wrap ih)

section Findings

variable {f g : String → String} {change : TableRef →
  TableRef} {tables : List TableRef} {id : String}

theorem isKnownTable_map (hc : Relabels f change) (h : Keeps f tables id) :
    isKnownTable (tables.map change) (f id) = isKnownTable tables id := by
  rw [Bool.eq_iff_iff, isKnownTable_iff, isKnownTable_iff]
  constructor
  · rintro ⟨_, hmem, hid⟩
    obtain ⟨t, ht, rfl⟩ := List.mem_map.mp hmem
    exact ⟨t, ht, h t ht ((hc.id t).symm.trans hid)⟩
  · rintro ⟨t, ht, rfl⟩
    exact ⟨change t, List.mem_map_of_mem ht, hc.id t⟩

theorem repeatedIds_map (hc : Relabels f change) (h : ∀ t ∈ tables, Keeps f tables t.id)
    {seen : List String} {ts : List TableRef}
    (hseen : ∀ id ∈ seen, ∃ t ∈ tables, t.id = id) (hts : ∀ t ∈ ts, t ∈ tables) :
    repeatedIds (seen.map f) (ts.map change) = (repeatedIds seen ts).map f := by
  induction ts generalizing seen with
  | nil => rfl
  | cons t ts ih =>
    obtain ⟨ht, hts⟩ := List.forall_mem_cons.mp hts
    have known : f t.id ∈ seen.map f ↔ t.id ∈ seen := by
      constructor
      · intro hmem
        obtain ⟨id, hid, heq⟩ := List.mem_map.mp hmem
        obtain ⟨u, hu, rfl⟩ := hseen id hid
        rwa [← h t ht u hu heq]
      · exact List.mem_map_of_mem
    have rest := ih (List.forall_mem_cons.mpr ⟨⟨t, ht, rfl⟩, hseen⟩) hts
    rw [List.map_cons, repeatedIds, repeatedIds, List.map_append, hc.id]
    refine congrArg₂ (· ++ ·) ?_ rest
    by_cases hmem : t.id ∈ seen
    · rw [if_pos (known.mpr hmem), if_pos hmem, List.map_singleton]
    · rw [if_neg (mt known.mp hmem), if_neg hmem, List.map_nil]

theorem Join.findings_renamed (hc : Relabels f change) {j : Join}
    (hfrom : Keeps f tables j.fromTableId) (hto : Keeps f tables j.toTableId) (index : Nat) :
    (j.renamed f g).findings (tables.map change) index =
      (j.findings tables index).map (·.renamed f) := by
  obtain ⟨_, source, target, _, conditions⟩ := j
  simp only [findings, renamed, isKnownTable_map hc hfrom, isKnownTable_map hc hto]
  cases isKnownTable tables source <;> cases isKnownTable tables target <;> cases conditions <;> rfl

theorem FilterCondition.findings_renamed (hc : Relabels f change) {c : FilterCondition}
    (h : ∀ id ∈ c.tableId, Keeps f tables id) (clause : FilterClause) :
    (c.renamed f).findings (tables.map change) clause =
      (c.findings tables clause).map (·.renamed f) := by
  have range : (c.renamed f).isOpenRange = c.isOpenRange := rfl
  rw [findings, findings, range]
  cases hid : c.tableId with
  | none =>
    simp only [renamed, hid, Option.map_none, Option.filter_none]
    split <;> rfl
  | some id =>
    simp only [renamed, hid, Option.map_some, Option.filter_some, isKnownTable_map hc (h id hid)]
    cases isKnownTable tables id with
    | false => rfl
    | true => cases c.isOpenRange <;> rfl

namespace Query

variable {q : Query}

theorem filterFindings_recast (hc : Relabels f change) (h : q.KeptBy f) (clause : FilterClause) :
    (q.recast change f g).filterFindings clause = (q.filterFindings clause).map (·.renamed f) := by
  rw [filterFindings, filterFindings, conditions_recast, List.flatMap_map, List.map_flatMap]
  exact List.flatMap_congr fun c hmem =>
    FilterCondition.findings_renamed hc (h.conditions clause c hmem) clause

theorem groupFindings_recast (q : Query) :
    (q.recast change f g).groupFindings = q.groupFindings.map (·.renamed f) := by
  rw [groupFindings, groupFindings, recast]
  cases q.groupBy with
  | none => rfl
  | some group =>
    simp only [Option.map_some, GroupClause.renamed, List.isEmpty_map]
    cases group.columns <;> rfl

theorem ownFindings_recast (hc : Relabels f change) (h : q.KeptBy f) :
    (q.recast change f g).ownFindings = q.ownFindings.map (·.renamed f) := by
  have unseen : ∀ id ∈ ([] : List String), ∃ t ∈ q.tables, t.id = id := nofun
  have repeated := repeatedIds_map hc h.tables unseen fun _ ht => ht
  have joins : ((q.joins.map (·.renamed f g)).mapIdx fun i j =>
        j.findings (q.tables.map change) (i + 1)).flatten =
      ((q.joins.mapIdx fun i j => j.findings q.tables (i + 1)).flatten).map (·.renamed f) := by
    rw [List.map_flatten]
    refine congrArg List.flatten (List.ext_getElem? fun i => ?_)
    rw [List.getElem?_mapIdx, List.getElem?_map, List.getElem?_map, List.getElem?_mapIdx]
    cases hj : q.joins[i]? with
    | none => rfl
    | some j =>
      have := h.joins j (List.mem_of_getElem? hj)
      exact congrArg some (Join.findings_renamed hc this.1 this.2 (i + 1))
  have empty : (if (q.tables.map change).isEmpty then [Finding.noTables] else []) =
      (if q.tables.isEmpty then [Finding.noTables] else []).map (·.renamed f) := by
    cases q.tables <;> rfl
  rw [ownFindings_eq, ownFindings_eq, filterFindings_recast hc h, filterFindings_recast hc h,
    groupFindings_recast]
  simp only [List.map_append, ← joins, ← empty, recast]
  rw [List.map_nil] at repeated
  rw [repeated, List.map_map, List.map_map]
  rfl

theorem ownFindings_holding (q : Query) (ctes : Option (List (CommonTable Query)))
    (unions : Option (List (SetBranch Query))) :
    { q with ctes := ctes, unions := unions }.ownFindings = q.ownFindings := rfl

theorem findings_eq (q : Query) :
    q.findings = q.ownFindings ++ optionalTableFindings q.ctes ++
      optionalBranchFindings q.unions := by
  cases q
  rfl

section Nested

variable {replace : Query → Query} {translate : Finding → Finding}

theorem tableFindings_map (hwrap : ∀ (s : NestingStep) x, s.wrap (translate x) =
      translate (s.wrap x))
    {cs : List (CommonTable Query)}
    (h : ∀ c ∈ cs, (replace c.query).findings = c.query.findings.map translate) :
    tableFindings (cs.map fun c => { c with query := replace c.query }) =
      (tableFindings cs).map translate := by
  induction cs with
  | nil => rfl
  | cons c cs ih =>
    obtain ⟨name, query, recursive⟩ := c
    obtain ⟨hc, hcs⟩ := List.forall_mem_cons.mp h
    rw [List.map_cons, tableFindings, tableFindings, hc, ih hcs, List.map_append, List.map_map,
      List.map_map]
    exact congrArg (· ++ _) (List.map_congr_left fun x _ => hwrap (.commonTable name) x)

theorem branchFindings_map (hwrap : ∀ (s : NestingStep) x, s.wrap (translate x) =
      translate (s.wrap x))
    (index : Nat) {us : List (SetBranch Query)}
    (h : ∀ u ∈ us, (replace u.query).findings = u.query.findings.map translate) :
    branchFindings index (us.map fun u => { u with query := replace u.query }) =
      (branchFindings index us).map translate := by
  induction us generalizing index with
  | nil => rfl
  | cons u us ih =>
    obtain ⟨kind, query⟩ := u
    obtain ⟨hu, hus⟩ := List.forall_mem_cons.mp h
    rw [List.map_cons, branchFindings, branchFindings, hu, ih _ hus, List.map_append, List.map_map,
      List.map_map]
    exact congrArg (· ++ _) (List.map_congr_left fun x _ => hwrap (.branch kind index) x)

/-- The findings are translated when those of the query by itself and of all that it holds are. -/
theorem findings_eq_of_parts (replace : Query → Query)
    (hwrap : ∀ (s : NestingStep) x, s.wrap (translate x) = translate (s.wrap x))
    {q r : Query} (hown : r.ownFindings = q.ownFindings.map translate)
    (hctes : r.ctes = q.ctes.map fun cs => cs.map fun c => { c with query := replace c.query })
    (hunions : r.unions = q.unions.map fun us => us.map fun u =>
      { u with query := replace u.query })
    (held : ∀ s, q.Holds s → (replace s).findings = s.findings.map translate) :
    r.findings = q.findings.map translate := by
  have tables : optionalTableFindings r.ctes = (optionalTableFindings q.ctes).map translate := by
    rw [hctes]
    cases hc : q.ctes with
    | none => rfl
    | some cs => exact tableFindings_map hwrap fun c hmem => held c.query (.commonTable hc hmem)
  have branches : optionalBranchFindings r.unions =
      (optionalBranchFindings q.unions).map translate := by
    rw [hunions]
    cases hu : q.unions with
    | none => rfl
    | some us => exact branchFindings_map hwrap 1 fun u hmem => held u.query (.branch hu hmem)
  rw [findings_eq, findings_eq, List.map_append, List.map_append, hown, tables, branches]

end Nested

theorem findings_renamed_of_injective (hf : Function.Injective f) (g : String → String)
    (q : Query) : (q.renamed f g).findings = q.findings.map (·.renamed f) := by
  induction q using nestedInduction with
  | step q ih =>
    refine findings_eq_of_parts (·.renamed f g) (fun s x => (Finding.renamed_wrap f s x).symm) ?_
      ?_ ?_ ih
    · rw [renamed_eq, ownFindings_holding]
      exact ownFindings_recast (relabels_renamed f) (keptBy_of_injective hf q)
    · rw [renamed_eq, renamedTables_eq_map]
    · rw [renamed_eq, renamedBranches_eq_map]

/-- Where no query inside has a finding that names an id, other ids change nothing. -/
theorem map_renamed_findings {q : Query} (f : String → String)
    (h : ∀ r, q.Reaches r → ∀ x ∈ r.ownFindings, x.renamed f = x) :
    q.findings.map (·.renamed f) = q.findings := by
  refine (List.map_congr_left fun x hx => ?_).trans (List.map_id _)
  rw [findings_eq_flatMap_places] at hx
  obtain ⟨p, hp, hx⟩ := List.mem_flatMap.mp hx
  obtain ⟨own, hown, rfl⟩ := List.mem_map.mp hx
  rw [Place.renamed_report, h p.query (exists_mem_places_iff.mp ⟨p, hp, rfl⟩) own hown]
  rfl

end Query

end Findings

end SqlCanvas
