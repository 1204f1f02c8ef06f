import SqlCanvas.Proofs.Layout.Lexeme
import SqlCanvas.Proofs.Regeneration.Nested

/-!
# Queries as lexemes

The lexemes of a query, written like its text. Calls in conditions and whatever stands behind
`EXISTS` are held as text in the query, so they count as one lexeme.
-/

namespace SqlCanvas

open Text Nesting Pattern

def commaLexemes (items : List (List Lexeme)) : List Lexeme :=
  [.fixed ",", .space].intercalate items

theorem printed_commaLexemes {items : List (List Lexeme)} {texts : List String}
    (h : items.map printed = texts.map String.toList) :
    printed (commaLexemes items) = (commaList texts).toList := by
  rw [commaLexemes, printed_intercalate, h, toList_commaList]
  rfl

def aliasLexemes (aliasName : Option String) : List Lexeme :=
  match nonempty? aliasName with
  | some a => [.space, .keyword "AS" WrittenAlias.isKeyword_as, .space, .fixed a]
  | none => []

theorem printed_aliasLexemes (text : String) (aliasName : Option String) :
    text.toList ++ printed (aliasLexemes aliasName) = (withAlias text aliasName).toList := by
  rw [aliasLexemes, withAlias]
  cases nonempty? aliasName <;> simp

def TableRef.lexemes (t : TableRef) : List Lexeme :=
  .fixed t.name :: aliasLexemes t.aliasName

@[simp] theorem TableRef.printed_lexemes (t : TableRef) : printed t.lexemes = t.sql.toList :=
  printed_aliasLexemes t.name t.aliasName

def Aggregate.lexemes (a : Aggregate) (argument : String) : List Lexeme :=
  .keyword a.function a.isKeyword_function :: .fixed "(" ::
    ((if a = .countDistinct then [.keyword "DISTINCT" isKeyword_distinct, .space] else []) ++
      [.fixed argument, .fixed ")"])

@[simp] theorem Aggregate.printed_lexemes (a : Aggregate) (argument : String) :
    printed (a.lexemes argument) = (a.sql argument).toList := by
  cases a <;> simp [lexemes, sql, function, Vocabulary.spelling]

namespace SelectedColumn

def bodyLexemes (c : SelectedColumn) (tables : List TableRef) : List Lexeme :=
  match nonempty? c.expression, findTable? tables c.tableId, c.aggregate with
  | some e, _, _ => [.fixed e]
  | none, none, _ => [.fixed c.columnName]
  | none, some t, none => [.fixed (t.column c.columnName)]
  | none, some t, some a => a.lexemes (t.column c.columnName)

def lexemes (c : SelectedColumn) (tables : List TableRef) : List Lexeme :=
  c.bodyLexemes tables ++ aliasLexemes c.aliasName

@[simp] theorem printed_lexemes (c : SelectedColumn) (tables : List TableRef) :
    printed (c.lexemes tables) = (c.sql tables).toList := by
  have body : printed (c.bodyLexemes tables) = (c.bodySql tables).toList := by
    rw [bodyLexemes, bodySql]
    cases nonempty? c.expression <;> cases findTable? tables c.tableId <;>
      cases c.aggregate <;> simp
  rw [lexemes, printed_append, body, printed_aliasLexemes]
  rfl

end SelectedColumn

def JoinCondition.lexemes (c : JoinCondition) (source target : TableRef) : List Lexeme :=
  [.fixed (source.column c.fromColumn), .space, .fixed (Vocabulary.spelling c.operator), .space,
    .fixed (target.column c.toColumn)]

@[simp] theorem JoinCondition.printed_lexemes (c : JoinCondition) (source target : TableRef) :
    printed (c.lexemes source target) = (c.sql source target).toList := by
  simp [lexemes, sql]

def wordLexemes (k : String) (h : IsKeyword k.toList) : List Lexeme :=
  [.space, .keyword k h, .space]

@[simp] theorem printed_wordLexemes (k : String) (h : IsKeyword k.toList) :
    printed (wordLexemes k h) = (" " ++ k ++ " ").toList := by
  simp [wordLexemes]

theorem isKeyword_on : IsKeyword "ON".toList := by
  decide

theorem isKeyword_join : IsKeyword "JOIN".toList := by
  decide

def onLexemes (conditions : List (List Lexeme)) : List Lexeme :=
  if conditions.isEmpty then []
  else wordLexemes "ON" isKeyword_on ++ (wordLexemes "AND" isKeyword_and).intercalate conditions

def Join.lexemes? (j : Join) (tables : List TableRef) : Option (List Lexeme) := do
  let source ← findTable? tables j.fromTableId
  let target ← findTable? tables j.toTableId
  return Lexeme.phrase (capitalKind j.kind) (isPhrase_capitalKind j.kind).2 ++
    (wordLexemes "JOIN" isKeyword_join ++
      (target.lexemes ++ onLexemes (j.conditions.map (·.lexemes source target))))

theorem Join.printed_lexemes? (j : Join) (tables : List TableRef) :
    (j.lexemes? tables).map printed = (j.sql? tables).map String.toList := by
  rw [lexemes?, sql?]
  cases findTable? tables j.fromTableId with
  | none => rfl
  | some source =>
    cases findTable? tables j.toTableId with
    | none => rfl
    | some target =>
      refine congrArg some ?_
      simp only [printed_append, printed_phrase, intercalate_capitalKind, printed_wordLexemes,
        TableRef.printed_lexemes, String.toList_append, onLexemes, List.append_assoc,
          List.isEmpty_map]
      split
      · simp
      · simp [printed_intercalate, String.toList_intercalate, Function.comp_def]

def Scalar.lexemes : Scalar → List Lexeme
  | .null => [.keyword "NULL" (by decide)]
  | .bool true => [.keyword "TRUE" (by decide)]
  | .bool false => [.keyword "FALSE" (by decide)]
  | v => [.fixed (String.ofList v.sql)]

@[simp] theorem Scalar.printed_lexemes (v : Scalar) : printed v.lexemes = v.sql := by
  cases v with
  | bool b => cases b <;> simp [lexemes, sql]
  | _ => simp [lexemes, sql]

def Datum.lexemes : Datum → List Lexeme
  | .scalar v => v.lexemes
  | d => [.fixed (String.ofList d.sql)]

@[simp] theorem Datum.printed_lexemes (d : Datum) : printed d.lexemes = d.sql := by
  cases d <;> simp [lexemes, sql]

def FilterOperator.lexemes : FilterOperator → List Lexeme
  | .compare c => [.fixed (Vocabulary.spelling c)]
  | .like => Lexeme.phrase ["LIKE"] (by decide)
  | .notLike => Lexeme.phrase ["NOT", "LIKE"] (by decide)
  | .isIn => Lexeme.phrase ["IN"] (by decide)
  | .notIn => Lexeme.phrase ["NOT", "IN"] (by decide)
  | .between => Lexeme.phrase ["BETWEEN"] (by decide)
  | .notBetween => Lexeme.phrase ["NOT", "BETWEEN"] (by decide)
  | .isNull => Lexeme.phrase ["IS", "NULL"] (by decide)
  | .isNotNull => Lexeme.phrase ["IS", "NOT", "NULL"] (by decide)
  | .exists => Lexeme.phrase ["EXISTS"] (by decide)
  | .notExists => Lexeme.phrase ["NOT", "EXISTS"] (by decide)
  | .allOf => Lexeme.phrase ["ALL"] (by decide)
  | .anyOf => Lexeme.phrase ["ANY"] (by decide)
  | .someOf => Lexeme.phrase ["SOME"] (by decide)

@[simp] theorem FilterOperator.printed_lexemes (o : FilterOperator) :
    printed o.lexemes = (Vocabulary.spelling o).toList := by
  cases o with
  | compare c => simp [lexemes, Vocabulary.spelling]
  | _ => rfl

def predicateLexemes (operator : FilterOperator) (column : String) (value value2 : Datum) :
    List Lexeme :=
  match operator.shape with
  | .bare => .fixed column :: .space :: operator.lexemes
  | .range => .fixed column :: .space :: (operator.lexemes ++ .space ::
      (value.lexemes ++ (wordLexemes "AND" isKeyword_and ++ value2.lexemes)))
  | .membership => .fixed column :: .space :: (operator.lexemes ++ .space :: .fixed "(" ::
      (commaLexemes (value.alternatives.map Datum.lexemes) ++ [.fixed ")"]))
  | .existence => operator.lexemes ++ [.space, .fixed (String.ofList value.displayed)]
  | .binary => .fixed column :: .space :: (operator.lexemes ++ .space :: value.lexemes)

@[simp] theorem printed_predicateLexemes (operator : FilterOperator) (column : String)
    (value value2 : Datum) : printed (predicateLexemes operator column value value2) =
      writePredicate operator.shape column.toList
        (Vocabulary.spelling operator).toList value value2 := by
  unfold predicateLexemes writePredicate
  cases operator.shape <;>
    simp [commaLexemes, printed_intercalate, Function.comp_def]

def FilterCondition.lexemes? (c : FilterCondition) (tables : List TableRef) :
    Option (List Lexeme) :=
  (c.columnSql? tables).map fun column =>
    predicateLexemes c.operator column c.value.toDatum (.scalar c.value2)

theorem FilterCondition.printed_lexemes? (c : FilterCondition) (tables : List TableRef) :
    (c.lexemes? tables).map printed = (c.sql? tables).map String.toList := by
  rw [lexemes?, sql?, Option.map_map, Option.map_map]
  congr 1
  funext column
  simp

def Connective.lexemes : Connective → List Lexeme
  | .and => wordLexemes "AND" isKeyword_and
  | .or => wordLexemes "OR" isKeyword_or

@[simp] theorem Connective.printed_lexemes (c : Connective) :
    printed c.lexemes = (" " ++ Vocabulary.spelling c ++ " ").toList := by
  cases c <;> rfl

def joinLexemes? (operator : Connective) (parts : List (List Lexeme)) : Option (List Lexeme) :=
  if parts.isEmpty then none else some (operator.lexemes.intercalate parts)

def parenLexemes (ls : List Lexeme) : List Lexeme :=
  .fixed "(" :: (ls ++ [.fixed ")"])

theorem printed_joinLexemes? (operator : Connective) {parts : List (List Lexeme)}
    {texts : List String} (h : parts.map printed = texts.map String.toList) :
    (joinLexemes? operator parts).map printed = (joinParts? operator texts).map String.toList := by
  have length := congrArg List.length h
  rw [List.length_map, List.length_map] at length
  have empty : parts.isEmpty = texts.isEmpty := by
    rw [Bool.eq_iff_iff, List.isEmpty_iff_length_eq_zero, List.isEmpty_iff_length_eq_zero, length]
  rw [joinLexemes?, joinParts?, empty]
  split
  · rfl
  · rw [Option.map_some, Option.map_some, printed_intercalate, h, String.toList_intercalate,
      Connective.printed_lexemes]

theorem printed_parenLexemes {o : Option (List Lexeme)} {s : Option String}
    (h : o.map printed = s.map String.toList) :
    (o.map parenLexemes).map printed = (s.map fun s => "(" ++ s ++ ")").map String.toList := by
  cases o <;> cases s <;> simp_all [parenLexemes]

namespace FilterNode

mutual

def lexemes? (tables : List TableRef) : FilterNode → Option (List Lexeme)
  | .condition c => c.lexemes? tables
  | .group operator children => joinLexemes? operator (partsLexemes tables children)

def partsLexemes (tables : List TableRef) : List FilterNode → List (List Lexeme)
  | [] => []
  | .condition c :: nodes => (c.lexemes? tables).toList ++ partsLexemes tables nodes
  | .group operator children :: nodes =>
    ((joinLexemes? operator (partsLexemes tables children)).map parenLexemes).toList ++
      partsLexemes tables nodes

end

mutual

theorem printed_lexemes? (tables : List TableRef) : (n : FilterNode) →
    (n.lexemes? tables).map printed = (n.sql? tables).map String.toList
  | .condition c => by
    rw [lexemes?, sql?, c.printed_lexemes?]
  | .group operator children => by
    rw [lexemes?, sql?, printed_joinLexemes? operator (map_printed_partsLexemes tables children)]

theorem map_printed_partsLexemes (tables : List TableRef) : (nodes : List FilterNode) →
    (partsLexemes tables nodes).map printed = (partsSql tables nodes).map String.toList
  | [] => by
    rw [partsLexemes, partsSql]
    rfl
  | .condition c :: nodes => by
    rw [partsLexemes, partsSql, List.map_append, List.map_append,
      map_printed_partsLexemes tables nodes, ← Option.toList_map, ← Option.toList_map,
        c.printed_lexemes?]
  | .group operator children :: nodes => by
    have group := printed_joinLexemes? operator (map_printed_partsLexemes tables children)
    rw [partsLexemes, partsSql, List.map_append, List.map_append,
      map_printed_partsLexemes tables nodes, ← Option.toList_map, ← Option.toList_map,
        printed_parenLexemes group]

end

end FilterNode

def linesOf (lines : List (List Lexeme)) : List Lexeme :=
  [Lexeme.line].intercalate lines

theorem intercalate_singleton_cons (x : Lexeme) (l : List Lexeme) (ls : List (List Lexeme)) :
    [x].intercalate (l :: ls) = l ++ ls.flatMap (x :: ·) := by
  induction ls generalizing l with
  | nil => simp
  | cons l' ls ih =>
    rw [List.intercalate_cons_cons, ih, List.flatMap_cons, List.append_assoc]
    rfl

theorem linesOf_cons (l : List Lexeme) (ls : List (List Lexeme)) :
    linesOf (l :: ls) = l ++ ls.flatMap (.line :: ·) :=
  intercalate_singleton_cons .line l ls

theorem printed_linesOf {lines : List (List Lexeme)} {texts : List String}
    (h : lines.map printed = texts.map String.toList) :
    printed (linesOf lines) = ("\n".intercalate texts).toList := by
  rw [linesOf, printed_intercalate, h, String.toList_intercalate]
  rfl

def clauseLexemes (words : List String) (h : ∀ k ∈ words, IsKeyword k.toList)
    (body : Option (List Lexeme)) : List (List Lexeme) :=
  (body.map fun ls => Lexeme.phrase words h ++ .space :: ls).toList

theorem map_printed_clauseLexemes (words : List String) (h : ∀ k ∈ words, IsKeyword k.toList)
    {body : Option (List Lexeme)} {text : Option String}
    (hbody : body.map printed = text.map String.toList) :
    (clauseLexemes words h body).map printed =
      (text.map (" ".intercalate words ++ " " ++ ·)).toList.map String.toList := by
  cases body <;> cases text <;> simp_all [clauseLexemes, printed_phrase]

namespace GroupClause

def columnsLexemes (g : GroupClause) (tables : List TableRef) : List Lexeme :=
  commaLexemes (g.columns.map fun c => [.fixed (qualifiedColumn tables c.tableId c.columnName)])

def havingLexemes? (g : GroupClause) (tables : List TableRef) : Option (List Lexeme) :=
  g.having.bind (·.lexemes? tables)

end GroupClause

def OrderItem.lexemes (o : OrderItem) (tables : List TableRef) : List Lexeme :=
  [.fixed (qualifiedColumn tables o.tableId o.columnName), .space,
    .keyword (Vocabulary.spelling o.direction) o.direction.isKeyword_spelling]

/-- The clauses that limit the rows. They stand on one line. -/
def Dialect.limitClauses (d : Dialect) (limit : Nat) (offset : Option Nat) : List (List Lexeme) :=
  match d with
  | .sqlserver =>
    [Lexeme.phrase ["OFFSET"] (by decide) ++ .space :: .fixed (intText (offset.getD 0)) :: .space ::
        Lexeme.phrase ["ROWS"] (by decide),
      Lexeme.phrase ["FETCH"] (by decide) ++
        .space :: (Lexeme.phrase ["NEXT"] (by decide) ++ .space ::
        .fixed (intText limit) :: .space :: Lexeme.phrase ["ROWS", "ONLY"] (by decide))]
  | _ =>
    (Lexeme.phrase ["LIMIT"] (by decide) ++ [.space, .fixed (intText limit)]) ::
      ((offset.filter (0 < ·)).map fun n =>
        Lexeme.phrase ["OFFSET"] (by decide) ++ [.space, .fixed (intText n)]).toList

def Dialect.limitLexemes (d : Dialect) (limit : Nat) (offset : Option Nat) : List Lexeme :=
  [Lexeme.space].intercalate (d.limitClauses limit offset)

theorem Dialect.printed_limitLexemes (d : Dialect) (limit : Nat) (offset : Option Nat) :
    printed (d.limitLexemes limit offset) = (d.pagination limit (offset.map Int.ofNat)).toList := by
  rw [limitLexemes, printed_intercalate]
  cases d with
  | sqlserver =>
    have first : ((offset.getD 0 : Nat) : Int) = (offset.map Int.ofNat).getD 0 := by
      cases offset <;> rfl
    simp [limitClauses, pagination, printed_phrase, first]
  | _ =>
    cases offset with
    | none => simp [limitClauses, pagination, printed_phrase]
    | some n => by_cases hn : 0 < n <;>
      simp [limitClauses, pagination, printed_phrase, hn, Option.filter]

namespace Query

def selectLexemes (q : Query) : List Lexeme :=
  .keyword "SELECT" isKeyword_select :: .space ::
    if q.selectedColumns.isEmpty then [.fixed "*"]
    else (if q.distinct then [.keyword "DISTINCT" isKeyword_distinct, .space] else []) ++
      commaLexemes (q.selectedColumns.map (·.lexemes q.tables))

def orderLexemes? (q : Query) : Option (List Lexeme) :=
  (q.orderBy.filter (!·.isEmpty)).map fun os => commaLexemes (os.map (·.lexemes q.tables))

def endingLexemes (q : Query) (d : Dialect) : List (List Lexeme) :=
  clauseLexemes ["WHERE"] (by decide) (q.filters.bind (·.toNode.lexemes? q.tables)) ++
    (clauseLexemes ["GROUP", "BY"] (by decide)
        ((q.groupBy.filter (!·.columns.isEmpty)).map (·.columnsLexemes q.tables)) ++
      (clauseLexemes ["HAVING"] (by decide) (q.groupBy.bind (·.havingLexemes? q.tables)) ++
        (clauseLexemes ["ORDER", "BY"] (by decide) q.orderLexemes? ++
          (q.limit.map fun limit => d.limitLexemes limit q.offset).toList)))

def ownLexemes (q : Query) (d : Dialect) (anchor : TableRef) : List (List Lexeme) :=
  q.selectLexemes :: (.keyword "FROM" isKeyword_from :: .space :: anchor.lexemes) ::
    (q.joins.filterMap (·.lexemes? q.tables) ++ q.endingLexemes d)

theorem printed_selectLexemes (q : Query) : printed q.selectLexemes = q.selectLine.toList := by
  have items : printed (commaLexemes (q.selectedColumns.map (·.lexemes q.tables))) =
      (commaList (q.selectedColumns.map (·.sql q.tables))).toList :=
    printed_commaLexemes (by simp [Function.comp_def])
  rw [selectLexemes, selectLine]
  split
  · rfl
  · cases q.distinct <;> simp [items]

theorem map_printed_joins (q : Query) : (q.joins.filterMap (·.lexemes? q.tables)).map printed =
    (q.joins.filterMap (·.sql? q.tables)).map String.toList := by
  rw [List.map_filterMap, List.map_filterMap]
  exact List.filterMap_congr fun j _ => j.printed_lexemes? q.tables

theorem map_printed_where (q : Query) :
    (clauseLexemes ["WHERE"] (by decide) (q.filters.bind (·.toNode.lexemes? q.tables))).map
      printed = q.whereLine.map String.toList := by
  have filter : (q.filters.bind (·.toNode.lexemes? q.tables)).map printed =
      (q.filters.bind (·.sql? q.tables)).map String.toList := by
    rw [Option.map_bind, Option.map_bind]
    congr 1
    funext f
    exact f.toNode.printed_lexemes? q.tables
  rw [map_printed_clauseLexemes ["WHERE"] (by decide) filter]
  rfl

theorem map_printed_groups (q : Query) : (clauseLexemes ["GROUP", "BY"] (by decide)
    ((q.groupBy.filter (!·.columns.isEmpty)).map (·.columnsLexemes q.tables)) ++
      clauseLexemes ["HAVING"] (by decide) (q.groupBy.bind (·.havingLexemes? q.tables))).map
        printed =
    q.groupLines.map String.toList := by
  cases hg : q.groupBy with
  | none => simp [groupLines, hg, clauseLexemes]
  | some g =>
    have having : (g.havingLexemes? q.tables).map printed =
        (g.havingSql? q.tables).map String.toList := by
      rw [GroupClause.havingLexemes?, GroupClause.havingSql?, Option.map_bind, Option.map_bind]
      congr 1
      funext n
      exact n.printed_lexemes? q.tables
    have listed : printed (g.columnsLexemes q.tables) = (g.columnsSql q.tables).toList :=
      printed_commaLexemes (by simp [Function.comp_def])
    have having := map_printed_clauseLexemes ["HAVING"] (by decide) having
    rw [List.map_append, Option.bind_some, having, groupLines, hg]
    simp only [GroupClause.lines, List.map_append]
    refine congrArg₂ _ ?_ rfl
    by_cases hne : g.columns = [] <;> simp [clauseLexemes, printed_phrase, listed, hne]

theorem map_printed_orders (q : Query) :
    (clauseLexemes ["ORDER", "BY"] (by decide) q.orderLexemes?).map printed =
      q.orderLine.map String.toList := by
  rw [orderLexemes?, orderLine]
  cases q.orderBy with
  | none => rfl
  | some os =>
    cases os with
    | nil => rfl
    | cons o os =>
      have items : printed (commaLexemes ((o :: os).map (·.lexemes q.tables))) =
          (commaList ((o :: os).map (·.sql q.tables))).toList :=
        printed_commaLexemes (by simp [OrderItem.lexemes, OrderItem.sql, Function.comp_def])
      simpa [clauseLexemes, printed_phrase] using items

theorem map_printed_limit (q : Query) (d : Dialect) :
    (q.limit.map fun limit => d.limitLexemes limit q.offset).toList.map printed =
      (q.limitLine d).map String.toList := by
  rw [limitLine]
  cases q.limit <;> simp [Dialect.printed_limitLexemes]

theorem map_printed_ownLexemes (q : Query) (d : Dialect) (anchor : TableRef) :
    (q.ownLexemes d anchor).map printed = (q.ownLines d anchor).map String.toList := by
  have groups := q.map_printed_groups
  rw [List.map_append] at groups
  simp only [ownLexemes, endingLexemes, ownLines, List.map_cons, List.map_append,
    q.printed_selectLexemes, q.map_printed_joins, q.map_printed_where, q.map_printed_orders,
    q.map_printed_limit d, printed_cons, TableRef.printed_lexemes, ← List.append_assoc]
  simp [← groups]

theorem isKeyword_with : IsKeyword "WITH".toList := by
  decide

theorem isKeyword_recursive : IsKeyword "RECURSIVE".toList := by
  decide

def withLexemes (ctes : List (CommonTable Query)) : List Lexeme :=
  .keyword "WITH" isKeyword_with :: .space ::
    if ctes.any (·.recursive) then [.keyword "RECURSIVE" isKeyword_recursive, .space] else []

theorem printed_withLexemes (ctes : List (CommonTable Query)) :
    printed (withLexemes ctes) = (withKeyword ctes).toList := by
  rw [withLexemes, withKeyword]
  split <;> simp

mutual

/-- The lexemes of a query in a dialect; none if it has no tables. -/
def lexemes (d : Dialect) : Query → List Lexeme
  | q@⟨_, _, tables, _, _, _, _, _, _, _, _, ctes, unions⟩ =>
    match tables with
    | [] => []
    | anchor :: _ =>
      linesOf (optionalTableLexemes d ctes ++ q.ownLexemes d anchor ++
        optionalBranchLexemes d unions)

def optionalTableLexemes (d : Dialect) : Option (List (CommonTable Query)) → List (List Lexeme)
  | none => []
  | some ctes =>
    if ctes.isEmpty then []
    else [withLexemes ctes ++ [.fixed ",", .line].intercalate (tableLexemes d ctes)]

def tableLexemes (d : Dialect) : List (CommonTable Query) → List (List Lexeme)
  | [] => []
  | ⟨name, query, _⟩ :: ctes =>
    (.fixed name :: (wordLexemes "AS" WrittenAlias.isKeyword_as ++ .fixed "(" :: .line ::
      (query.lexemes d ++ [.line, .fixed ")"]))) :: tableLexemes d ctes

def optionalBranchLexemes (d : Dialect) : Option (List (SetBranch Query)) → List (List Lexeme)
  | none => []
  | some unions => branchLexemes d unions

def branchLexemes (d : Dialect) : List (SetBranch Query) → List (List Lexeme)
  | [] => []
  | ⟨kind, query⟩ :: branches =>
    Lexeme.phrase (operationWords kind) (isPhrase_operationWords kind).2 :: query.lexemes d ::
      branchLexemes d branches

end

theorem lexemes_eq (q : Query) (d : Dialect) : q.lexemes d =
    match q.tables with
    | [] => []
    | anchor :: _ =>
      linesOf (optionalTableLexemes d q.ctes ++ q.ownLexemes d anchor ++
          optionalBranchLexemes d q.unions) := by
  obtain ⟨_, _, tables, _, _, _, _, _, _, _, _, _, _⟩ := q
  cases tables <;> rfl

section Printed

variable {d : Dialect}

theorem printed_tableLexemes {cs : List (CommonTable Query)}
    (h : ∀ c ∈ cs, ∀ body, c.query.sql d = .ok body → printed (c.query.lexemes d) = body.toList)
    {bodies : List String} (hbodies : tablesSql d cs = .ok bodies) :
    (tableLexemes d cs).map printed = bodies.map String.toList := by
  induction cs generalizing bodies with
  | nil =>
    cases hbodies
    rfl
  | cons c cs ih =>
    obtain ⟨hc, hcs⟩ := List.forall_mem_cons.mp h
    obtain ⟨name, query, recursive⟩ := c
    rw [tablesSql] at hbodies
    obtain ⟨body, hbody, hbodies⟩ := exists_of_bind_eq_ok hbodies
    obtain ⟨rest, hrest, hbodies⟩ := exists_of_bind_eq_ok hbodies
    cases hbodies
    rw [tableLexemes, List.map_cons, List.map_cons, ih hcs hrest, toList_commonTableSql]
    simp [hc body hbody]

theorem printed_branchLexemes {us : List (SetBranch Query)}
    (h : ∀ u ∈ us, ∀ body, u.query.sql d = .ok body → printed (u.query.lexemes d) = body.toList)
    {lines : List String} (hlines : branchesSql d us = .ok lines) :
    (branchLexemes d us).map printed = lines.map String.toList := by
  induction us generalizing lines with
  | nil =>
    cases hlines
    rfl
  | cons u us ih =>
    obtain ⟨hu, hus⟩ := List.forall_mem_cons.mp h
    obtain ⟨kind, query⟩ := u
    rw [branchesSql] at hlines
    obtain ⟨body, hbody, hlines⟩ := exists_of_bind_eq_ok hlines
    obtain ⟨rest, hrest, hlines⟩ := exists_of_bind_eq_ok hlines
    cases hlines
    rw [branchLexemes, List.map_cons, List.map_cons, List.map_cons, List.map_cons, ih hus hrest,
      hu body hbody, printed_phrase, intercalate_operationWords]

/-- The text of a query is that of its lexemes. -/
theorem printed_lexemes {q : Query} {sql : String} (h : q.sql d = .ok sql) :
    printed (q.lexemes d) = sql.toList := by
  induction q using nestedInduction generalizing sql with
  | step q ih =>
    obtain ⟨anchor, withLine, branchLines, hanchor, hwith, hbranches, rfl⟩ := exists_lines_of_sql h
    obtain ⟨rest, htables⟩ : ∃ rest, q.tables = anchor :: rest := List.head?_eq_some_iff.mp hanchor
    -- The induction is used for WITH bodies and branches only; the own lines have nothing nested in
    -- them.
    have tables : (optionalTableLexemes d q.ctes).map printed = withLine.map String.toList := by
      cases hc : q.ctes with
      | none =>
        rw [hc] at hwith
        cases hwith
        rfl
      | some cs =>
        rw [hc, optionalTables] at hwith
        obtain ⟨bodies, hbodies, hwith⟩ := exists_of_bind_eq_ok hwith
        have texts :=
          printed_tableLexemes (fun c hc' body hbody => ih _ (.commonTable hc hc') hbody) hbodies
        cases cs with
        | nil =>
          cases hbodies
          cases hwith
          rfl
        | cons c cs =>
          have bodies_ne : bodies ≠ [] := by
            rintro rfl
            exact absurd texts (by simp [tableLexemes])
          rw [if_neg (by simpa using bodies_ne)] at hwith
          cases hwith
          rw [optionalTableLexemes, if_neg (by simp), List.map_singleton, List.map_singleton,
            printed_append, printed_withLexemes, printed_intercalate, texts, String.toList_append,
              String.toList_intercalate]
          rfl
    have branches : (optionalBranchLexemes d q.unions).map printed =
        branchLines.map String.toList := by
      cases hu : q.unions with
      | none =>
        rw [hu] at hbranches
        cases hbranches
        rfl
      | some us =>
        rw [hu, optionalBranches] at hbranches
        exact printed_branchLexemes (fun u hu' body hbody => ih _ (.branch hu hu') hbody) hbranches
    rw [lexemes_eq, htables]
    refine printed_linesOf ?_
    rw [List.map_append, List.map_append, tables, branches,
      map_printed_ownLexemes, ← List.map_append, ← List.map_append]

end Printed

end Query

end SqlCanvas
