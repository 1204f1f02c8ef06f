import SqlCanvas.Proofs.Statement.Reference

/-!
# The numbers of a session

With ids that are counted by stem, the tables of all statements of a session are numbered one after
another, and so are the joins, whatever the statements hold. The order is the one of reading: the
queries of a `WITH` clause before the query they stand in front of, and that one before the operands
of its set operations.
-/

namespace SqlCanvas

namespace Query

mutual

/-- A query and the queries in it, in the order of reading. -/
def inOrder : Query → List Query
  | q@⟨_, _, _, _, _, _, _, _, _, _, _, ctes, unions⟩ =>
    optionalTablesInOrder ctes ++ q :: optionalBranchesInOrder unions

def optionalTablesInOrder : Option (List (CommonTable Query)) → List Query
  | none => []
  | some ctes => tablesInOrder ctes

def tablesInOrder : List (CommonTable Query) → List Query
  | [] => []
  | ⟨_, query, _⟩ :: ctes => query.inOrder ++ tablesInOrder ctes

def optionalBranchesInOrder : Option (List (SetBranch Query)) → List Query
  | none => []
  | some unions => branchesInOrder unions

def branchesInOrder : List (SetBranch Query) → List Query
  | [] => []
  | ⟨_, query⟩ :: unions => query.inOrder ++ branchesInOrder unions

end

/-- The ids of all tables, in the order of reading. -/
def tableIds (q : Query) : List String :=
  q.inOrder.flatMap fun r => r.tables.map (·.id)

def joinIds (q : Query) : List String :=
  q.inOrder.flatMap fun r => r.joins.map (·.id)

theorem tablesInOrder_eq_flatMap (ctes : List (CommonTable Query)) :
    tablesInOrder ctes = (ctes.map (·.query)).flatMap inOrder := by
  induction ctes with
  | nil => rw [tablesInOrder, List.map_nil, List.flatMap_nil]
  | cons c ctes ih =>
    obtain ⟨name, query, recursive⟩ := c
    rw [tablesInOrder, ih, List.map_cons, List.flatMap_cons]

theorem branchesInOrder_eq_flatMap (unions : List (SetBranch Query)) :
    branchesInOrder unions = (unions.map (·.query)).flatMap inOrder := by
  induction unions with
  | nil => rw [branchesInOrder, List.map_nil, List.flatMap_nil]
  | cons b unions ih =>
    obtain ⟨kind, query⟩ := b
    rw [branchesInOrder, ih, List.map_cons, List.flatMap_cons]

theorem inOrder_complete (kind : StatementKind) (ctes : List (CommonTable Query))
    (unions : List (SetBranch Query)) (own : Query) :
    (Statement.complete kind ctes unions own).inOrder = (ctes.map (·.query)).flatMap inOrder ++
      Statement.complete kind ctes unions own :: (unions.map (·.query)).flatMap inOrder := by
  rw [← tablesInOrder_eq_flatMap, ← branchesInOrder_eq_flatMap]
  cases ctes <;> cases unions <;>
    simp [Statement.complete, inOrder, optionalTablesInOrder, optionalBranchesInOrder,
      tablesInOrder, branchesInOrder]

theorem tableIds_complete (kind : StatementKind) (ctes : List (CommonTable Query))
    (unions : List (SetBranch Query)) (own : Query) :
    (Statement.complete kind ctes unions own).tableIds = (ctes.map (·.query)).flatMap tableIds ++
      (own.tables.map (·.id) ++ (unions.map (·.query)).flatMap tableIds) := by
  rw [tableIds, inOrder_complete, List.flatMap_append, List.flatMap_cons, List.flatMap_assoc,
    List.flatMap_assoc]
  rfl

theorem joinIds_complete (kind : StatementKind) (ctes : List (CommonTable Query))
    (unions : List (SetBranch Query)) (own : Query) :
    (Statement.complete kind ctes unions own).joinIds = (ctes.map (·.query)).flatMap joinIds ++
      (own.joins.map (·.id) ++ (unions.map (·.query)).flatMap joinIds) := by
  rw [joinIds, inOrder_complete, List.flatMap_append, List.flatMap_cons, List.flatMap_assoc,
    List.flatMap_assoc]
  rfl

end Query

namespace StemCounters

/-- Between two states the ids were given for the stem, and nothing else for it: they carry the
numbers on which its counter stood. -/
structure Gives (s : StemCounters) (stem : String) (given : List String) (s' : StemCounters) :
    Prop where
  ids : given = (List.range given.length).map fun i : Nat => id stem (s.count stem + i)
  count : s'.count stem = s.count stem + given.length

variable {s s₁ s₂ : StemCounters} {stem : String}

theorem id_eq (stem : String) (n : Int) : id stem n = stem ++ "_" ++ toString n := by
  cases n with
  | ofNat n => rfl
  | negSucc n =>
    have text : String.ofList (Numeral.ofInt (.negSucc n)) = "-" ++ toString (n + 1) := by
      rw [Numeral.ofInt, String.ofList_cons]
      rfl
    exact congrArg (stem ++ "_" ++ ·) text

theorem Gives.nothing (s : StemCounters) (stem : String) : Gives s stem [] s :=
  ⟨rfl, (Int.add_zero _).symm⟩

theorem Gives.append {xs ys : List String} (hx : Gives s stem xs s₁) (hy : Gives s₁ stem ys s₂) :
    Gives s stem (xs ++ ys) s₂ := by
  refine ⟨?_, ?_⟩
  · rw [List.length_append, List.range_add, List.map_append, ← hx.ids, List.map_map]
    refine congrArg (xs ++ ·) (hy.ids.trans (List.map_congr_left fun i _ => ?_))
    rw [hx.count, Function.comp_apply]
    exact congrArg (id stem) (by omega)
  · rw [hy.count, hx.count, List.length_append]
    omega

theorem gives_next (s : StemCounters) (stem : String) :
    Gives s stem [(IdSource.sequential.next stem s).1] (IdSource.sequential.next stem s).2 := by
  refine ⟨?_, s.count_advance_self stem⟩
  exact congrArg (fun n => [id stem n]) (Int.add_zero _).symm

theorem gives_next_of_ne (s : StemCounters) {other : String} (h : stem ≠ other) :
    Gives s stem [] (IdSource.sequential.next other s).2 :=
  ⟨rfl, (s.count_advance_of_ne h).trans (Int.add_zero _).symm⟩

end StemCounters

namespace Select

open StemCounters

variable {s s' : StemCounters} {sources sources' : Sources}

/-- Tables and joins have taken the ids given since a state. -/
def Sources.Counted (sources : Sources) (s s' : StemCounters) : Prop :=
  Gives s "table" (sources.tables.map (·.id)) s' ∧ Gives s "join" (sources.joins.map (·.id)) s'

theorem Sources.Counted.readJoin {s₀ : StemCounters} (h : sources.Counted s₀ s) {o : Occurrence}
    {segment : Text} (hread : (readJoin .sequential sources o segment).run s = (.ok sources', s')) :
    sources'.Counted s₀ s' := by
  obtain ⟨id, kind, hid, rfl⟩ := readJoin_cases hread
  have after : s' = (IdSource.sequential.next "join" (IdSource.sequential.next "table" s).2).2 :=
    (congrArg Prod.snd hid).symm
  have joined : id = (IdSource.sequential.next "join" (IdSource.sequential.next "table" s).2).1 :=
    (congrArg Prod.fst hid).symm
  subst after joined
  -- The table is given the next id of its stem, the join that of its own; neither moves the other
  -- counter.
  have tables := (gives_next s "table").append (gives_next_of_ne _ (by decide : "table" ≠ "join"))
  have joins := (gives_next_of_ne s (by decide : "join" ≠ "table")).append (gives_next _ "join")
  refine ⟨?_, ?_⟩
  · simpa [Sources.add, newTable] using h.1.append tables
  · simpa using h.2.append joins

theorem counted_readAnchor {o : Option Occurrence}
    (hread : (readAnchor .sequential o).run s = (.ok sources, s')) : sources.Counted s s' := by
  cases o with
  | none =>
    cases hread
    exact ⟨.nothing s _, .nothing s _⟩
  | some o =>
    cases hread
    exact ⟨gives_next s "table", gives_next_of_ne s (by decide)⟩

theorem gives_read {t : Text} {q : Query} (hread : (read .sequential t).run s = (.ok q, s')) :
    Gives s "table" (q.tables.map (·.id)) s' ∧ Gives s "join" (q.joins.map (·.id)) s' := by
  obtain ⟨sources, s₁, hanchor, hbody⟩ := Reading.exists_of_run_bind hread
  obtain ⟨sources', s₂, hjoins, hend⟩ := Reading.exists_of_run_bind hbody
  have counted : sources'.Counted s s₂ :=
    readJoins_induction (P := fun sources s' => sources.Counted s s')
      (fun h hread => h.readJoin hread) (counted_readAnchor hanchor) hjoins
  obtain ⟨hrest, rfl⟩ := Prod.mk.inj hend
  obtain ⟨columnsText, rest, -, rfl⟩ := readRest_cases hrest
  exact ⟨by simpa only [assemble, map_id_tickedTables] using counted.1, counted.2⟩

end Select

namespace Statement

open StemCounters

variable {s s' : StemCounters}

/-- The ids of a query and of the queries in it are those given between two states. -/
def Numbered (s : StemCounters) (q : Query) (s' : StemCounters) : Prop :=
  Gives s "table" q.tableIds s' ∧ Gives s "join" q.joinIds s'

theorem numbered_inTurn {qs : List Query} (h : InTurn Numbered s qs s') :
    Gives s "table" (qs.flatMap (·.tableIds)) s' ∧ Gives s "join" (qs.flatMap (·.joinIds)) s' := by
  induction h with
  | nil s => exact ⟨.nothing s _, .nothing s _⟩
  | cons hq _ ih => exact ⟨hq.1.append ih.1, hq.2.append ih.2⟩

theorem numbered_steps : ReadingSteps .sequential Numbered where
  select htables hown hbranches := by
    obtain ⟨htables, htables'⟩ := numbered_inTurn htables
    obtain ⟨hown, hown'⟩ := Select.gives_read hown
    obtain ⟨hbranches, hbranches'⟩ := numbered_inTurn hbranches
    rw [Numbered, Query.tableIds_complete, Query.joinIds_complete]
    exact ⟨htables.append (hown.append hbranches), htables'.append (hown'.append hbranches')⟩
  change htables hchange := by
    obtain ⟨htables, htables'⟩ := numbered_inTurn htables
    obtain ⟨hnone, hjoins⟩ := tables_of_change hchange
    rw [Numbered, Query.tableIds_complete, Query.joinIds_complete, hnone, hjoins]
    exact ⟨htables.append (.nothing _ _), htables'.append (.nothing _ _)⟩

theorem numbered_of_read {sql : Text} {statement : Statement}
    (hread : (read .sequential sql).run s = (.ok statement, s')) : Numbered s statement.query s' :=
  numbered_steps.whole_of_ofOutline _ hread

theorem numbered_of_readAll {sqls : List Text} {statements : List Statement} {s : StemCounters}
    (h : readAll .sequential sqls s = statements.map .ok) :
    ∃ s', Gives s "table" (statements.flatMap (·.query.tableIds)) s' ∧
      Gives s "join" (statements.flatMap (·.query.joinIds)) s' := by
  induction sqls generalizing statements s with
  | nil =>
    obtain rfl : statements = [] := List.map_eq_nil_iff.mp h.symm
    exact ⟨s, .nothing s _, .nothing s _⟩
  | cons sql sqls ih =>
    cases hrun : (read .sequential sql).run s with
    | mk result s₁ =>
      rw [readAll, hrun] at h
      cases statements with
      | nil => cases h
      | cons statement statements =>
        obtain ⟨rfl, hrest⟩ := List.cons.inj h
        obtain ⟨htables, hjoins⟩ := numbered_of_read hrun
        obtain ⟨s', htables', hjoins'⟩ := ih hrest
        exact ⟨s', htables.append htables', hjoins.append hjoins'⟩

theorem exists_readAll {σ : Type} (ids : IdSource σ) {sqls : List Text}
    (h : ∀ sql ∈ sqls, Readable sql) (s : σ) :
    ∃ statements : List Statement, readAll ids sqls s = statements.map .ok := by
  induction sqls generalizing s with
  | nil => exact ⟨[], rfl⟩
  | cons sql sqls ih =>
    obtain ⟨hsql, hsqls⟩ := List.forall_mem_cons.mp h
    obtain ⟨statement, s', hread, -⟩ := yields_read ids hsql s
    obtain ⟨statements, hrest⟩ := ih hsqls s'
    refine ⟨statement :: statements, ?_⟩
    rw [readAll, hread, List.map_cons, ← hrest]

/-- Ids are handed out without repetition or gap. When all texts of a session are read with one
source that counts by stem from `start`, the tables of the statements, in the order of reading, are
numbered `start`, `start + 1`, and so on, and so are the joins. Whatever stems are asked for, no id
is given twice. -/
theorem numbered_session {start : Int} {sqls : List Text} {statements : List Statement}
    (h : readAll .sequential sqls (.fresh start) = statements.map .ok) :
    (∃ n, statements.flatMap (·.query.tableIds) =
      (List.range n).map fun i : Nat => "table_" ++ toString (start + i)) ∧
    (∃ n, statements.flatMap (·.query.joinIds) =
      (List.range n).map fun i : Nat => "join_" ++ toString (start + i)) ∧
    ∀ stems, (IdSource.sequential.nextAll stems (.fresh start)).1.Nodup := by
  obtain ⟨s', tables, joins⟩ := numbered_of_readAll h
  have spelled (stem : String) (n : Nat) :
      ((List.range n).map fun i : Nat => StemCounters.id stem (start + i)) =
        (List.range n).map fun i : Nat => stem ++ "_" ++ toString (start + i) :=
    List.map_congr_left fun i _ => id_eq stem (start + i)
  refine ⟨⟨_, tables.ids.trans (spelled "table" _)⟩, ⟨_, joins.ids.trans (spelled "join" _)⟩, ?_⟩
  exact fun stems => nodup_nextAll stems _

/-- Two statements, the first with a common table, a join and a union. -/
def twoTexts : List Text :=
  ["WITH c AS (SELECT a FROM t) SELECT a FROM c JOIN u ON u.a = c.a UNION SELECT a FROM v".toList,
    "SELECT a FROM t JOIN u ON u.a = t.a".toList]

/-- Two statements are read from the number seven on. -/
theorem numbered_two_statements :
    ∃ statements : List Statement,
      readAll .sequential twoTexts (.fresh 7) = statements.map .ok ∧
      statements.flatMap (·.query.tableIds) =
        ["table_7", "table_8", "table_9", "table_10", "table_11", "table_12"] ∧
      statements.flatMap (·.query.joinIds) = ["join_7", "join_8"] ∧
      (IdSource.sequential.nextAll ["table", "table_1", "table", "join"] (.fresh 7)).1.Nodup := by
  have readable : ∀ sql ∈ twoTexts, Readable sql :=
    List.forall_mem_cons.mpr ⟨.of_short (by decide) (by decide),
      List.forall_mem_cons.mpr ⟨.of_short (by decide) (by decide), List.forall_mem_nil _⟩⟩
  have counts : ((readAll .sequential twoTexts (.fresh 7)).map fun
      | .ok statement => (statement.query.tableIds.length, statement.query.joinIds.length)
      | .error _ => (0, 0)) = [(4, 1), (2, 1)] := by
    decide +kernel
  obtain ⟨statements, hread⟩ := exists_readAll .sequential readable (.fresh 7)
  obtain ⟨⟨n, tables⟩, ⟨m, joins⟩, distinct⟩ := numbered_session hread
  rw [hread, List.map_map] at counts
  have tableCount : n = 6 := by
    have := congrArg List.length tables
    rw [List.length_flatMap, List.length_map, List.length_range] at this
    have sums := congrArg (fun counts => (counts.map Prod.fst).sum) counts
    rw [List.map_map] at sums
    exact this.symm.trans sums
  have joinCount : m = 2 := by
    have := congrArg List.length joins
    rw [List.length_flatMap, List.length_map, List.length_range] at this
    have sums := congrArg (fun counts => (counts.map Prod.snd).sum) counts
    rw [List.map_map] at sums
    exact this.symm.trans sums
  subst tableCount joinCount
  exact ⟨statements, hread, tables.trans (by decide +kernel), joins.trans (by decide +kernel),
    distinct _⟩

end Statement

end SqlCanvas
