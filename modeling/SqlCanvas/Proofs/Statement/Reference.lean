import SqlCanvas.Proofs.IdSource
import SqlCanvas.Proofs.Query.Omission
import SqlCanvas.Proofs.Statement.Induction
import SqlCanvas.Proofs.Statement.Legible

/-!
# References of what is read

A statement that is read may be any text at all. Still every id that its query refers to is that of
one of its tables: names stand for tables that were entered, unknown names stand for the anchor, and
joins follow the tables one by one. Only without a table behind `FROM` there is no anchor to fall
back on.
-/

namespace SqlCanvas

open Text

theorem isKnownTable_append {ts us : List TableRef} {id : String} :
    isKnownTable (ts ++ us) id = (isKnownTable ts id || isKnownTable us id) :=
  List.any_append

/-- Whatever a name stands for in a scope is one of the tables. -/
structure Scope.Within (scope : Scope) (tables : List TableRef) : Prop where
  lookup : ∀ entry ∈ scope.lookup, isKnownTable tables entry.2 = true
  anchor : ∀ id ∈ scope.anchor, isKnownTable tables id = true

namespace Scope.Within

variable {scope : Scope} {tables : List TableRef} {id : String}

theorem of_find? (h : scope.Within tables) {name : Text} (hid : id ∈ scope.lookup.find? name) :
    isKnownTable tables id = true := by
  obtain ⟨entry, hentry, rfl⟩ := Option.map_eq_some_iff.mp hid
  exact h.lookup entry (List.mem_of_find?_eq_some hentry)

theorem of_table (h : scope.Within tables) {qualifier : Text} (hid : id ∈ scope.table qualifier) :
    isKnownTable tables id = true := by
  rcases Option.or_eq_some_iff.mp hid with hid | ⟨-, hid⟩
  · exact h.of_find? hid
  · exact h.anchor id hid

theorem of_resolve (h : scope.Within tables) {aliases : List Text} {reference : Text}
    (hid : id ∈ (scope.resolve aliases reference).1) : isKnownTable tables id = true := by
  rw [Scope.resolve] at hid
  split at hid
  · cases hid
  · split at hid
    · exact h.of_table hid
    · split at hid
      · cases hid
      · exact h.anchor id hid

theorem getD_table (h : scope.Within tables) (hanchor : scope.anchor.isSome) (qualifier : Text) :
    isKnownTable tables ((scope.table qualifier).getD "") = true := by
  obtain ⟨anchor, hanchor⟩ := Option.isSome_iff_exists.mp hanchor
  cases ht : scope.table qualifier with
  | some id => exact h.of_table ht
  | none => simp [Scope.table, hanchor] at ht

theorem getD_anchor (h : scope.Within tables) (hanchor : scope.anchor.isSome) :
    isKnownTable tables (scope.anchor.getD "") = true := by
  obtain ⟨anchor, hanchor⟩ := Option.isSome_iff_exists.mp hanchor
  rw [hanchor]
  exact h.anchor anchor hanchor

theorem register (h : scope.Within tables) (name : Text) (aliasName : Option Text) (t : TableRef) :
    Scope.Within { scope with lookup := scope.lookup.register name aliasName t.id }
      (tables ++ [t]) := by
  have known : isKnownTable (tables ++ [t]) t.id = true := by simp [isKnownTable]
  have old (id : String) (hid : isKnownTable tables id = true) : isKnownTable (tables ++ [t]) id =
      true := by
    simp [isKnownTable_append, hid]
  refine ⟨fun entry hentry => ?_, fun id hid => old id (h.anchor id hid)⟩
  have earlier (lookup : Lookup) (hl : ∀ e ∈ lookup, isKnownTable (tables ++ [t]) e.2 = true)
      (other : Text) : ∀ e ∈ lookup.insert other t.id, isKnownTable (tables ++ [t]) e.2 = true :=
    List.forall_mem_cons.mpr ⟨known, hl⟩
  have named :=
    earlier _ (earlier _ (fun e he => old _ (h.lookup e he)) name) (Lookup.lastPart name)
  cases aliasName with
  | none => exact named entry hentry
  | some a => exact earlier _ named a entry hentry

end Scope.Within

def FilterCondition.Within (c : FilterCondition) (tables : List TableRef) : Prop :=
  ∀ id ∈ c.tableId, isKnownTable tables id = true

/-- Some text is read as the condition, with names that stand for what they do in the scope. -/
def FilterCondition.StatedIn (c : FilterCondition) (scope : Scope) : Prop :=
  ∃ t, Filter.readCondition scope t = .ok (some c)

namespace Filter

variable {scope : Scope} {tables : List TableRef}

theorem within_of_statedIn (h : scope.Within tables) {c : FilterCondition} (hc : c.StatedIn scope) :
    c.Within tables := by
  obtain ⟨t, hc⟩ := hc
  rw [readCondition] at hc
  split at hc
  · obtain ⟨operator, -, hc⟩ := exists_of_bind_eq_ok hc
    cases hc
    intro id hid
    cases hid
  · split at hc
    · cases hc
    · obtain ⟨value, -, hc⟩ := exists_of_bind_eq_ok hc
      split at hc
      · cases hc
      · cases hc
        exact fun id hid => h.of_resolve hid

theorem statedIn_readConditions {conjuncts : List Text} {cs : List FilterCondition}
    (hcs : readConditions scope conjuncts = .ok cs) : ∀ c ∈ cs, c.StatedIn scope := by
  obtain ⟨found, hfound, hcs⟩ := exists_of_bind_eq_ok hcs
  cases hcs
  intro c hc
  obtain ⟨c', hc', hid⟩ := List.mem_filterMap.mp hc
  obtain ⟨t, -, ht⟩ := exists_of_mem_mapM hfound c' hc'
  rw [id_eq] at hid
  subst hid
  exact ⟨t, ht⟩

theorem conditionsAll_map (cs : List FilterCondition) :
    FilterNode.conditionsAll (cs.map .condition) = cs := by
  induction cs with
  | nil => rfl
  | cons c cs ih => rw [List.map_cons, FilterNode.conditionsAll, ih, FilterNode.conditions]; rfl

theorem conditionsAll_flatten (nss : List (List FilterNode)) :
    FilterNode.conditionsAll nss.flatten = nss.flatMap FilterNode.conditionsAll := by
  induction nss with
  | nil => rfl
  | cons ns nss ih => rw [List.flatten_cons, FilterNode.conditionsAll_append, ih, List.flatMap_cons]

theorem statedIn_readBranch {branch : Text} {ns : List FilterNode}
    (hns : readBranch scope branch = .ok ns) :
    ∀ c ∈ FilterNode.conditionsAll ns, c.StatedIn scope := by
  obtain ⟨cs, hcs, hns⟩ := exists_of_bind_eq_ok hns
  have stated := statedIn_readConditions hcs
  rw [← Except.ok.inj hns]
  split
  · simpa [FilterNode.conditionsAll, FilterNode.conditions, conditionsAll_map] using stated
  · simpa [conditionsAll_map] using stated

theorem statedIn_read {t : Text} {g : FilterGroup} (hg : read scope t = .ok g) :
    ∀ c ∈ g.toNode.conditions, c.StatedIn scope := by
  simp only [read] at hg
  split at hg
  · obtain ⟨children, hchildren, hg⟩ := exists_of_bind_eq_ok hg
    cases hg
    intro c hc
    simp only [FilterGroup.toNode, FilterNode.conditions, conditionsAll_flatten] at hc
    obtain ⟨ns, hns, hc⟩ := List.mem_flatMap.mp hc
    obtain ⟨branch, -, hbranch⟩ := exists_of_mem_mapM hchildren ns hns
    exact statedIn_readBranch hbranch c hc
  · obtain ⟨cs, hcs, hg⟩ := exists_of_bind_eq_ok hg
    cases hg
    simpa [FilterGroup.toNode, FilterNode.conditions, conditionsAll_map]
      using statedIn_readConditions hcs

end Filter

namespace Select

variable {scope : Scope} {tables : List TableRef}

theorem statedIn_readFilter? {t : Option Text} {g : Option FilterGroup}
    (hg : readFilter? scope t = .ok g) :
    ∀ c ∈ (g.map (·.toNode.conditions)).getD [], c.StatedIn scope := by
  cases t with
  | none =>
    cases hg
    simp
  | some t =>
    obtain ⟨found, hfound, hg⟩ := exists_of_bind_eq_ok hg
    cases hg
    exact Filter.statedIn_read hfound

theorem known_readColumn (h : scope.Within tables) (hanchor : scope.anchor.isSome) {item : Text}
    {c : SelectedColumn} (hc : readColumn scope item = .ok c) :
    isKnownTable tables c.tableId = true := by
  have expression : isKnownTable tables (expressionColumn scope item).tableId = true := by
    simp only [expressionColumn]
    exact h.getD_anchor hanchor
  rw [readColumn] at hc
  split at hc
  · cases hc
    exact h.getD_table hanchor _
  · split at hc
    · cases hc
      exact h.getD_anchor hanchor
    · split at hc
      · split at hc
        · rename_i m _ _
          rw [readAggregate_eq] at hc
          cases ha : aggregateOf m with
          | error e => rw [ha] at hc; cases hc
          | ok aggregate =>
            rw [ha] at hc
            cases hc
            simp only [argumentTable]
            split
            · exact h.getD_table hanchor _
            · exact h.getD_anchor hanchor
        · cases hc
          exact expression
      · cases hc
        exact expression

theorem known_readColumns (h : scope.Within tables) (hanchor : scope.anchor.isSome)
    {columnsText : Option Text} {cs : List SelectedColumn}
    (hcs : readColumns scope columnsText = .ok cs) :
    ∀ c ∈ cs, isKnownTable tables c.tableId = true := by
  rw [readColumns.eq_def] at hcs
  split at hcs
  · split at hcs
    · cases hcs
      exact List.forall_mem_nil _
    · intro c hc
      obtain ⟨item, -, hitem⟩ := exists_of_mem_mapM hcs c hc
      exact known_readColumn h hanchor hitem
  · cases hcs
    exact List.forall_mem_nil _

theorem known_groupColumns (h : scope.Within tables) (aliases : List Text) (t : Text) :
    ∀ c ∈ groupColumns scope aliases t, ∀ id ∈ c.tableId, isKnownTable tables id = true := by
  intro c hc id hid
  obtain ⟨item, -, rfl⟩ := List.mem_map.mp hc
  exact h.of_resolve hid

theorem known_orderItems (h : scope.Within tables) (aliases : List Text) (t : Text) :
    ∀ o ∈ orderItems scope aliases t, ∀ id ∈ o.tableId, isKnownTable tables id = true := by
  intro o ho id hid
  obtain ⟨item, -, hitem⟩ := List.mem_filterMap.mp ho
  obtain ⟨m, -, hitem⟩ := Option.bind_eq_some_iff.mp hitem
  have item : o.tableId = (scope.resolve aliases (m.captured 1)).1 := by
    cases hk : m.capture? 2 with
    | none =>
      rw [hk] at hitem
      cases hitem
      rfl
    | some keyword =>
      rw [hk] at hitem
      obtain ⟨direction, -, hitem⟩ := Option.bind_eq_some_iff.mp hitem
      cases hitem
      rfl
  rw [item] at hid
  exact h.of_resolve hid

/-- Every join leads to the table that was entered with it, from that table or an earlier one. -/
def Linked (tables : List TableRef) (joins : List Join) : Prop :=
  ∀ k j, joins[k]? = some j → (∃ t, tables[k + 1]? = some t ∧ t.id = j.toTableId) ∧
    isKnownTable (tables.take (k + 2)) j.fromTableId = true

theorem Linked.append {joins : List Join} {j : Join} {t : TableRef} (h : Linked tables joins)
    (hcount : tables.length = joins.length + 1) (hto : j.toTableId = t.id)
    (hfrom : isKnownTable (tables ++ [t]) j.fromTableId = true) :
    Linked (tables ++ [t]) (joins ++ [j]) := by
  intro k j' hj'
  rcases Nat.lt_or_ge k joins.length with hk | hk
  · rw [List.getElem?_append_left hk] at hj'
    obtain ⟨⟨t', ht', hid⟩, hknown⟩ := h k j' hj'
    refine ⟨⟨t', ?_, hid⟩, ?_⟩
    · rw [List.getElem?_append_left (by omega), ht']
    · rwa [List.take_append_of_le_length (by omega)]
  · obtain rfl : k = joins.length := by
      have := (List.getElem?_eq_some_iff.mp hj').1
      rw [List.length_append, List.length_singleton] at this
      omega
    rw [List.getElem?_concat_length, Option.some.injEq] at hj'
    subst hj'
    refine ⟨⟨t, ?_, hto.symm⟩, ?_⟩
    · rw [← hcount, List.getElem?_concat_length]
    · rwa [List.take_of_length_le (by simp [hcount])]

/-- A scope with an anchor, with a join for each table behind the first. -/
structure Sources.Anchored (sources : Sources) : Prop where
  anchor : sources.scope.anchor.isSome = true
  within : sources.scope.Within sources.tables
  count : sources.tables.length = sources.joins.length + 1
  linked : Linked sources.tables sources.joins

theorem mem_of_mem_nonempty? {x : Option String} {id : String} (h : id ∈ nonempty? x) : id ∈ x := by
  cases x with
  | none => exact h
  | some s =>
    rw [nonempty?] at h
    split at h
    · cases h
    · exact h

theorem known_left_oriented {p : OnPredicate} (joined : String)
    (hleft : ∀ id ∈ p.left, isKnownTable tables id = true)
    (hright : ∀ id ∈ p.right, isKnownTable tables id = true) :
    ∀ id ∈ (p.oriented joined).left, isKnownTable tables id = true := by
  rw [OnPredicate.oriented]
  split
  · exact hright
  · exact hleft

theorem known_sourceTable {anchor : Option String} {ps : List OnPredicate}
    (hanchor : ∀ id ∈ anchor, isKnownTable tables id = true)
    (hps : ∀ p ∈ ps, ∀ id ∈ p.left, isKnownTable tables id = true) :
    ∀ id ∈ sourceTable anchor ps, isKnownTable tables id = true := by
  induction ps with
  | nil => exact nofun
  | cons p ps ih =>
    obtain ⟨hp, hps⟩ := List.forall_mem_cons.mp hps
    intro id hid
    rw [sourceTable] at hid
    rcases Option.or_eq_some_iff.mp hid with hid | ⟨-, hid⟩
    · rcases Option.or_eq_some_iff.mp hid with hid | ⟨-, hid⟩
      · exact hp id (mem_of_mem_nonempty? hid)
      · exact hanchor id hid
    · exact ih hps id hid

theorem known_read? (h : scope.Within tables) {t : Text} {p : OnPredicate}
    (hp : OnPredicate.read? scope.lookup t = some p) :
    (∀ id ∈ p.left, isKnownTable tables id = true) ∧ ∀ id ∈ p.right, isKnownTable tables id =
      true := by
  obtain ⟨m, -, hp⟩ := Option.bind_eq_some_iff.mp hp
  obtain ⟨operator, -, hp⟩ := Option.bind_eq_some_iff.mp hp
  cases hp
  exact ⟨fun id hid => h.of_find? hid, fun id hid => h.of_find? hid⟩

theorem known_readOn (h : scope.Within tables) (hanchor : scope.anchor.isSome) (joined : String)
    (segment : Text) : isKnownTable tables ((readOn scope joined segment).2.getD "") = true := by
  rw [readOn]
  split
  · exact h.getD_anchor hanchor
  · rename_i m _
    simp only
    cases hs : nonempty? (sourceTable scope.anchor
        (((Filter.splitAnd (m.captured 1).stripParens).filterMap
          (OnPredicate.read? scope.lookup)).map (·.oriented joined))) with
    | none => exact h.getD_anchor hanchor
    | some id =>
      refine known_sourceTable h.anchor (fun p hp => ?_) id (mem_of_mem_nonempty? hs)
      obtain ⟨written, hwritten, rfl⟩ := List.mem_map.mp hp
      obtain ⟨t, -, ht⟩ := List.mem_filterMap.mp hwritten
      exact known_left_oriented joined (known_read? h ht).1 (known_read? h ht).2

variable {σ : Type} {ids : IdSource σ} {s s' : σ} {sources sources' : Sources}

/-- A table has entered under a new id. -/
def Sources.add (sources : Sources) (id : String) (name : Text) (aliasName : Option Text) :
    Sources :=
  { sources with
    tables := sources.tables ++ [newTable id name aliasName]
    scope := { sources.scope with lookup := sources.scope.lookup.register name aliasName id } }

theorem readTable_run (name : Text) (aliasName : Option Text) :
    (readTable ids sources name aliasName).run s =
      (.ok ((ids.next "table" s).1, sources.add (ids.next "table" s).1 name aliasName),
        (ids.next "table" s).2) := rfl

/-- What reading a join does: a table enters under one id, and a join to it under the next. -/
theorem readJoin_cases {o : Occurrence} {segment : Text}
    (h : (readJoin ids sources o segment).run s = (.ok sources', s')) :
    ∃ id kind, ids.next "join" (ids.next "table" s).2 = (id, s') ∧
      let table := (ids.next "table" s).1
      let added := sources.add table (o.captured 2) (o.capture? 3)
      sources' = { added with
        joins := sources.joins ++ [{
          id := id
          fromTableId := (readOn added.scope table segment).2.getD ""
          toTableId := table
          kind := kind
          conditions := (readOn added.scope table segment).1 }] } := by
  rw [readJoin, Reading.run_bind_ok (readTable_run _ _)] at h
  obtain ⟨id, s₁, hid, h⟩ := Reading.exists_of_run_bind h
  obtain ⟨kind, s₂, hkind, h⟩ := Reading.exists_of_run_bind h
  obtain ⟨-, rfl⟩ := Prod.mk.inj hkind
  cases hid
  cases h
  exact ⟨_, kind, rfl, rfl⟩

theorem within_readJoin (h : sources.scope.Within sources.tables) {o : Occurrence} {segment : Text}
    (hread : (readJoin ids sources o segment).run s = (.ok sources', s')) :
    sources'.scope.Within sources'.tables := by
  obtain ⟨id, kind, -, rfl⟩ := readJoin_cases hread
  exact h.register (o.captured 2) (o.capture? 3)
    (newTable (ids.next "table" s).1 (o.captured 2) (o.capture? 3))

theorem Sources.Anchored.readJoin (h : sources.Anchored) {o : Occurrence} {segment : Text}
    (hread : (readJoin ids sources o segment).run s = (.ok sources', s')) : sources'.Anchored := by
  have within := within_readJoin h.within hread
  obtain ⟨id, kind, -, rfl⟩ := readJoin_cases hread
  refine ⟨h.anchor, within, ?_, h.linked.append h.count rfl ?_⟩
  · simp [Sources.add, h.count]
  · exact known_readOn within h.anchor _ segment

theorem count_readJoin {n : Nat} (h : sources.tables.length = sources.joins.length + n)
    {o : Occurrence} {segment : Text}
    (hread : (readJoin ids sources o segment).run s = (.ok sources', s')) :
    sources'.tables.length = sources'.joins.length + n := by
  obtain ⟨id, kind, -, rfl⟩ := readJoin_cases hread
  simp only [Sources.add, List.length_append, List.length_singleton, h]
  omega

theorem fresh_readJoin {used : List String} (h : ids.Fresh (used ++ sources.tables.map (·.id)) s)
    {o : Occurrence} {segment : Text} (hread : (readJoin ids sources o segment).run s =
      (.ok sources', s')) :
    ids.Fresh (used ++ sources'.tables.map (·.id)) s' := by
  obtain ⟨id, kind, hid, rfl⟩ := readJoin_cases hread
  have := ((h.next "table").next "join").sublist (List.sublist_append_left _ _)
  rw [hid] at this
  simpa [Sources.add, newTable] using this

/-- What reading a join keeps, reading any number of them keeps. -/
theorem readJoins_induction {P : Sources → σ → Prop}
    (step : ∀ {sources sources' : Sources} {s s' : σ} {o : Occurrence} {segment : Text},
      P sources s → (readJoin ids sources o segment).run s = (.ok sources', s') → P sources' s')
    {segments : List (Occurrence × Text)} (h : P sources s)
    (hread : (readJoins ids sources segments).run s = (.ok sources', s')) : P sources' s' := by
  induction segments generalizing sources s with
  | nil =>
    cases hread
    exact h
  | cons x segments ih =>
    obtain ⟨next, s₁, hfirst, hread⟩ := Reading.exists_of_run_bind hread
    exact ih (step h hfirst) hread

theorem within_readAnchor {o : Option Occurrence}
    (hread : (readAnchor ids o).run s = (.ok sources, s')) :
    sources.scope.Within sources.tables := by
  have start : Scope.empty.Within [] := ⟨nofun, nofun⟩
  cases o with
  | none =>
    cases hread
    exact start
  | some o =>
    cases hread
    have within := start.register (o.captured 1) (o.capture? 2)
      (newTable (ids.next "table" s).1 (o.captured 1) (o.capture? 2))
    refine ⟨within.lookup, ?_⟩
    rintro id ⟨⟩
    simp [isKnownTable, newTable]

theorem anchored_readAnchor {o : Occurrence}
    (hread : (readAnchor ids (some o)).run s = (.ok sources, s')) : sources.Anchored := by
  have within := within_readAnchor hread
  cases hread
  exact ⟨rfl, within, rfl, nofun⟩

end Select

/-- Everything in a query refers to its own tables. -/
structure Query.Grounded (q : Query) : Prop where
  joins : Select.Linked q.tables q.joins
  columns : ∀ c ∈ q.selectedColumns, isKnownTable q.tables c.tableId = true
  conditions : ∀ clause, ∀ c ∈ q.conditions clause, c.Within q.tables
  groups : ∀ g ∈ q.groupBy, ∀ c ∈ g.columns, ∀ id ∈ c.tableId, isKnownTable q.tables id = true
  order : ∀ items ∈ q.orderBy, ∀ o ∈ items, ∀ id ∈ o.tableId, isKnownTable q.tables id = true

namespace Select

theorem map_id_tickedTables (columnsText : Option Text) (tables : List TableRef) :
    (tickedTables columnsText tables).map (·.id) = tables.map (·.id) := by
  rw [tickedTables]
  split
  · rw [List.map_map]
    rfl
  · rfl

theorem isKnownTable_congr {ts us : List TableRef} (h : ts.map (·.id) = us.map (·.id))
    (id : String) : isKnownTable ts id = isKnownTable us id := by
  have any (xs : List TableRef) : isKnownTable xs id = (xs.map (·.id)).any (· == id) := by
    rw [List.any_map]
    rfl
  rw [any, any, h]

theorem Linked.congr {ts us : List TableRef} {joins : List Join} (h : ts.map (·.id) = us.map (·.id))
    (hl : Linked ts joins) : Linked us joins := by
  intro k j hj
  obtain ⟨⟨t, ht, hid⟩, hknown⟩ := hl k j hj
  have same : (us.map (·.id))[k + 1]? = some t.id := by rw [← h, List.getElem?_map, ht]; rfl
  rw [List.getElem?_map] at same
  obtain ⟨u, hu, hut⟩ := Option.map_eq_some_iff.mp same
  have taken : (us.take (k + 2)).map (·.id) = (ts.take (k + 2)).map (·.id) := by
    rw [List.map_take, List.map_take, h]
  exact ⟨⟨u, hu, hut.trans hid⟩, by rwa [isKnownTable_congr taken]⟩

theorem bind_having_grouping (columns : Option (List GroupColumn)) (having : Option FilterGroup) :
    (grouping columns having).bind (·.having) = having.map (·.toNode) := by
  cases columns <;> cases having <;> rfl

theorem exists_groupColumn {f : Text → List GroupColumn} {body : Option Text}
    {having : Option FilterGroup} {g : GroupClause} (hg : g ∈ grouping (body.map f) having)
    {c : GroupColumn} (hc : c ∈ g.columns) :
    ∃ t, c ∈ f t := by
  cases body with
  | some t =>
    cases hg
    exact ⟨t, hc⟩
  | none =>
    cases having with
    | none => cases hg
    | some h =>
      cases hg
      cases hc

variable {t : Text} {anchor : Option Occurrence} {clauses : Clauses} {q : Query}

theorem readRest_cases (h : readRest t anchor clauses sources = .ok q) :
    ∃ columnsText rest, readParts sources.scope columnsText clauses = .ok rest ∧
      q = assemble (selectHead.match? t) columnsText clauses sources rest := by
  rw [readRest_eq] at h
  cases hparts : readParts sources.scope (columnsText? t (selectHead.match? t) anchor) clauses with
  | error e =>
    simp only [hparts] at h
    cases h
  | ok rest =>
    simp only [hparts] at h
    cases h
    exact ⟨_, rest, hparts, rfl⟩

theorem statedIn_readRest (hread : readRest t anchor clauses sources = .ok q)
    (clause : FilterClause) : ∀ c ∈ q.conditions clause, c.StatedIn sources.scope := by
  obtain ⟨columnsText, rest, hparts, rfl⟩ := readRest_cases hread
  obtain ⟨columns, -, hparts⟩ := exists_of_bind_eq_ok hparts
  obtain ⟨filters, hfilters, hparts⟩ := exists_of_bind_eq_ok hparts
  obtain ⟨having, hhaving, hparts⟩ := exists_of_bind_eq_ok hparts
  obtain ⟨limits, -, hparts⟩ := exists_of_bind_eq_ok hparts
  cases hparts
  intro c hc
  cases clause with
  | «where» => exact statedIn_readFilter? hfilters c hc
  | having =>
    refine statedIn_readFilter? hhaving c ?_
    rw [Query.conditions, assemble, bind_having_grouping, Option.map_map] at hc
    exact hc

theorem within_readRest (h : sources.scope.Within sources.tables)
    (hread : readRest t anchor clauses sources = .ok q) (clause : FilterClause) :
    ∀ c ∈ q.conditions clause, c.Within q.tables := by
  have stated := statedIn_readRest hread clause
  obtain ⟨columnsText, rest, -, rfl⟩ := readRest_cases hread
  intro c hc id hid
  change isKnownTable (tickedTables columnsText sources.tables) id = true
  rw [isKnownTable_congr (map_id_tickedTables columnsText sources.tables)]
  exact Filter.within_of_statedIn h (stated c hc) id hid

theorem Sources.Anchored.readRest (h : sources.Anchored)
    (hread : readRest t anchor clauses sources = .ok q) : q.Grounded := by
  have conditions := within_readRest h.within hread
  obtain ⟨columnsText, rest, hparts, rfl⟩ := readRest_cases hread
  obtain ⟨columns, hcolumns, hparts⟩ := exists_of_bind_eq_ok hparts
  obtain ⟨filters, -, hparts⟩ := exists_of_bind_eq_ok hparts
  obtain ⟨having, -, hparts⟩ := exists_of_bind_eq_ok hparts
  obtain ⟨limits, -, hparts⟩ := exists_of_bind_eq_ok hparts
  cases hparts
  have same := map_id_tickedTables columnsText sources.tables
  have known (id : String) (hid : isKnownTable sources.tables id = true) :
      isKnownTable (tickedTables columnsText sources.tables) id = true := by
    rwa [isKnownTable_congr same]
  refine ⟨h.linked.congr same.symm, ?_, conditions, ?_, ?_⟩
  · exact fun c hc => known _ (known_readColumns h.within h.anchor hcolumns c hc)
  · intro g hg c hc id hid
    obtain ⟨item, hitem⟩ := exists_groupColumn hg hc
    exact known id (known_groupColumns h.within _ _ c hitem id hid)
  · intro items hitems o ho id hid
    obtain ⟨body, -, rfl⟩ := Option.map_eq_some_iff.mp hitems
    exact known id (known_orderItems h.within _ body o ho id hid)

theorem statedIn_read (hread : (read ids t).run s = (.ok q, s')) :
    ∃ scope, ∀ clause, ∀ c ∈ q.conditions clause, c.StatedIn scope := by
  obtain ⟨sources, s₁, -, hbody⟩ := Reading.exists_of_run_bind hread
  obtain ⟨sources', s₂, -, hend⟩ := Reading.exists_of_run_bind hbody
  obtain ⟨hrest, -⟩ := Prod.mk.inj hend
  exact ⟨sources'.scope, fun clause => statedIn_readRest hrest clause⟩

theorem within_read (hread : (read ids t).run s = (.ok q, s')) (clause : FilterClause) :
    ∀ c ∈ q.conditions clause, c.Within q.tables := by
  obtain ⟨sources, s₁, hanchor, hbody⟩ := Reading.exists_of_run_bind hread
  obtain ⟨sources', s₂, hjoins, hend⟩ := Reading.exists_of_run_bind hbody
  have within : sources'.scope.Within sources'.tables :=
    readJoins_induction (P := fun sources _ => sources.scope.Within sources.tables)
      (fun h hread => within_readJoin h hread) (within_readAnchor hanchor) hjoins
  obtain ⟨hrest, -⟩ := Prod.mk.inj hend
  exact within_readRest within hrest clause

theorem read_of_anchor {o : Occurrence} (ho : t.findTopLevel? fromTable = some o)
    (hread : (read ids t).run s = (.ok q, s')) :
    q.tables.length = q.joins.length + 1 ∧ q.Grounded := by
  obtain ⟨sources, s₁, hanchor, hbody⟩ := Reading.exists_of_run_bind hread
  obtain ⟨sources', s₂, hjoins, hend⟩ := Reading.exists_of_run_bind hbody
  rw [ho] at hanchor
  have anchored : sources'.Anchored :=
    readJoins_induction (P := fun sources _ => sources.Anchored)
      (fun h hread => h.readJoin hread) (anchored_readAnchor hanchor) hjoins
  obtain ⟨hrest, -⟩ := Prod.mk.inj hend
  refine ⟨?_, anchored.readRest hrest⟩
  obtain ⟨columnsText, rest, -, rfl⟩ := readRest_cases hrest
  have := congrArg List.length (map_id_tickedTables columnsText sources'.tables)
  simp only [List.length_map] at this
  exact this.trans anchored.count

theorem read_of_no_anchor (ho : t.findTopLevel? fromTable = none)
    (hread : (read ids t).run s = (.ok q, s')) : q.tables.length = q.joins.length := by
  obtain ⟨sources, s₁, hanchor, hbody⟩ := Reading.exists_of_run_bind hread
  obtain ⟨sources', s₂, hjoins, hend⟩ := Reading.exists_of_run_bind hbody
  rw [ho] at hanchor
  cases hanchor
  have count : sources'.tables.length = sources'.joins.length + 0 :=
    readJoins_induction (P := fun sources _ => sources.tables.length = sources.joins.length + 0)
      (fun h hread => count_readJoin h hread) rfl hjoins
  obtain ⟨hrest, -⟩ := Prod.mk.inj hend
  obtain ⟨columnsText, rest, -, rfl⟩ := readRest_cases hrest
  have := congrArg List.length (map_id_tickedTables columnsText sources'.tables)
  simp only [List.length_map] at this
  exact this.trans count

theorem fresh_read {used : List String} (h : ids.Fresh used s)
    (hread : (read ids t).run s = (.ok q, s')) : ids.Fresh (used ++ q.tables.map (·.id)) s' := by
  obtain ⟨sources, s₁, hanchor, hbody⟩ := Reading.exists_of_run_bind hread
  obtain ⟨sources', s₂, hjoins, hend⟩ := Reading.exists_of_run_bind hbody
  have start : ids.Fresh (used ++ sources.tables.map (·.id)) s₁ := by
    cases ho : t.findTopLevel? fromTable with
    | none =>
      rw [ho] at hanchor
      cases hanchor
      simpa using h
    | some o =>
      rw [ho] at hanchor
      cases hanchor
      exact h.next "table"
  have fresh :=
    readJoins_induction (P := fun sources s => ids.Fresh (used ++ sources.tables.map (·.id)) s)
      (fun h hread => fresh_readJoin h hread) start hjoins
  obtain ⟨hrest, rfl⟩ := Prod.mk.inj hend
  obtain ⟨columnsText, rest, -, rfl⟩ := readRest_cases hrest
  simpa only [assemble, map_id_tickedTables] using fresh

end Select

/-- Whether a finding is about an id: one that two tables have, or one that no table has. -/
def Finding.concernsId : Finding → Bool
  | .duplicateTable _ | .joinSource _ | .joinTarget _ | .filterTable .. => true
  | _ => false

theorem repeatedIds_eq_nil {seen : List String} {ts : List TableRef}
    (h : (seen.reverse ++ ts.map (·.id)).Nodup) : repeatedIds seen ts = [] := by
  induction ts generalizing seen with
  | nil => rfl
  | cons t ts ih =>
    have fresh : t.id ∉ seen := by
      intro hseen
      have := List.nodup_append.mp h
      exact this.2.2 t.id (List.mem_reverse.mpr hseen) t.id (by simp) rfl
    rw [repeatedIds, if_neg fresh, List.nil_append]
    exact ih (by simpa using h)

theorem Query.duplicateTable_mem_ownFindings_iff {q : Query} {id : String} :
    .duplicateTable id ∈ q.ownFindings ↔ id ∈ repeatedIds [] q.tables := by
  constructor
  · intro h
    rw [Query.ownFindings_eq] at h
    simp only [List.mem_append, Query.mem_joinFindings, Query.mem_filterFindings] at h
    rcases h with (((h | h) | ⟨i, j, -, h⟩) | ⟨c, -, h⟩) | h | ⟨c, -, h⟩
    · split at h <;> simp at h
    · simpa using h
    · rcases Join.mem_findings.mp h with ⟨-, h⟩ | ⟨-, h⟩ | ⟨-, h⟩ <;> cases h
    · rcases FilterCondition.mem_findings h with ⟨id, h⟩ | h <;> cases h
    · cases Query.eq_of_mem_groupFindings h
    · rcases FilterCondition.mem_findings h with ⟨id, h⟩ | h <;> cases h
  · intro h
    rw [Query.ownFindings_eq]
    simp [h]

theorem Query.Grounded.concernsId_eq_false {q : Query} (h : q.Grounded)
    (hnodup : (q.tables.map (·.id)).Nodup) {f : Finding} (hf : f ∈ q.ownFindings) :
    f.concernsId = false := by
  rcases Query.mem_ownFindings hf with ⟨rfl, -⟩ | ⟨id, rfl⟩ | ⟨i, j, hj, hf⟩ | rfl
    | ⟨clause, c, hc, hf⟩
  · rfl
  · rw [Query.duplicateTable_mem_ownFindings_iff, repeatedIds_eq_nil (by simpa using hnodup)] at hf
    cases hf
  · obtain ⟨⟨t, ht, hto⟩, hfrom⟩ := h.joins i j hj
    rcases Join.mem_findings.mp hf with ⟨hunknown, -⟩ | ⟨hunknown, -⟩ | ⟨-, rfl⟩
    · obtain ⟨u, hu, hid⟩ := isKnownTable_iff.mp hfrom
      rw [isKnownTable_iff.mpr ⟨u, List.mem_of_mem_take hu, hid⟩] at hunknown
      cases hunknown
    · rw [isKnownTable_iff.mpr ⟨t, List.mem_of_getElem? ht, hto⟩] at hunknown
      cases hunknown
    · rfl
  · rfl
  · rcases FilterCondition.mem_findings hf with ⟨id, rfl⟩ | rfl
    · obtain ⟨-, -, hid, hunknown⟩ := FilterCondition.filterTable_mem_findings.mp hf
      rw [h.conditions clause c hc id hid] at hunknown
      cases hunknown
    · rfl

namespace Change

theorem exists_filter_of_readUpdate {t : Text} {fragment : Option UpdateFragment}
    {filter : Option FilterGroup} (h : readUpdate t = .ok (fragment, filter)) :
    ∃ text, readFilter? text = .ok filter := by
  rw [readUpdate] at h
  split at h
  · cases h
    exact ⟨none, rfl⟩
  · obtain ⟨found, hfound, h⟩ := exists_of_bind_eq_ok h
    cases h
    exact ⟨_, hfound⟩

theorem exists_filter_of_readDelete {t : Text} {fragment : Option DeleteFragment}
    {filter : Option FilterGroup} (h : readDelete t = .ok (fragment, filter)) :
    ∃ text, readFilter? text = .ok filter := by
  rw [readDelete] at h
  split at h
  · cases h
    exact ⟨none, rfl⟩
  · obtain ⟨found, hfound, h⟩ := exists_of_bind_eq_ok h
    cases h
    exact ⟨_, hfound⟩

theorem exists_filter_of_read {kind : StatementKind} {t : Text} {statement : Statement}
    (h : read kind t = .ok statement) :
    ∃ text filter, readFilter? text = .ok filter ∧
      statement.query = { Query.empty with filters := filter } := by
  cases kind with
  | update =>
    obtain ⟨⟨fragment, filter⟩, hread, h⟩ := exists_of_bind_eq_ok h
    cases h
    obtain ⟨text, htext⟩ := exists_filter_of_readUpdate hread
    exact ⟨text, filter, htext, rfl⟩
  | delete =>
    obtain ⟨⟨fragment, filter⟩, hread, h⟩ := exists_of_bind_eq_ok h
    cases h
    obtain ⟨text, htext⟩ := exists_filter_of_readDelete hread
    exact ⟨text, filter, htext, rfl⟩
  | _ =>
    cases h
    exact ⟨none, none, rfl, rfl⟩

theorem statedIn_readFilter? {t : Option Text} {filter : Option FilterGroup}
    (h : readFilter? t = .ok filter) :
    ∀ c ∈ (filter.map (·.toNode.conditions)).getD [], c.StatedIn .empty := by
  rw [readFilter?.eq_def] at h
  split at h
  · obtain ⟨group, hgroup, h⟩ := exists_of_bind_eq_ok h
    cases h
    exact Filter.statedIn_read hgroup
  · cases h
    exact List.forall_mem_nil _

theorem statedIn_read {kind : StatementKind} {t : Text} {statement : Statement}
    (h : read kind t = .ok statement) (clause : FilterClause) :
    ∀ c ∈ statement.query.conditions clause, c.StatedIn .empty := by
  obtain ⟨text, filter, hread, hquery⟩ := exists_filter_of_read h
  rw [hquery]
  cases clause with
  | «where» => exact statedIn_readFilter? hread
  | having => exact List.forall_mem_nil _

theorem within_read {kind : StatementKind} {t : Text} {statement : Statement}
    (h : read kind t = .ok statement) (clause : FilterClause) :
    ∀ c ∈ statement.query.conditions clause, c.Within statement.query.tables := by
  have empty : Scope.Within .empty statement.query.tables := ⟨nofun, nofun⟩
  exact fun c hc => Filter.within_of_statedIn empty (statedIn_read h clause c hc)

end Change

namespace Statement

variable {σ : Type} {ids : IdSource σ} {s s' : σ}

/-- The query is what the text of one `SELECT` was read as, whatever other queries it holds. -/
def ReadFrom (ids : IdSource σ) (t : Text) (q : Query) : Prop :=
  ∃ s s' own ctes branches,
    (Select.read ids t).run s = (.ok own, s') ∧ q = complete .select ctes branches own

/-- What reading makes of a single query: it refers to its own tables where there is one behind
`FROM`, and has a join for every table where there is none. -/
def Sound (ids : IdSource σ) (q : Query) : Prop :=
  (q.tables.map (·.id)).Nodup ∧
    ((∃ t, ReadFrom ids t q ∧ (t.findTopLevel? Select.fromTable).isSome ∧
        q.tables.length = q.joins.length + 1 ∧ q.Grounded) ∨
      ((q.tables = [] ∨ ∃ t, ReadFrom ids t q ∧ t.findTopLevel? Select.fromTable = none) ∧
        q.tables.length = q.joins.length))

theorem grounded_complete {own : Query} (h : own.Grounded) (kind : StatementKind)
    (ctes : List (CommonTable Query)) (branches : List (SetBranch Query)) :
    (complete kind ctes branches own).Grounded where
  joins := h.joins
  columns := h.columns
  conditions
    | .where => h.conditions .where
    | .having => h.conditions .having
  groups := h.groups
  order := h.order

theorem sound_complete {t : Text} {own : Query} {used : List String} (hfresh : ids.Fresh used s)
    (hread : (Select.read ids t).run s = (.ok own, s')) (ctes : List (CommonTable Query))
    (branches : List (SetBranch Query)) : Sound ids (complete .select ctes branches own) := by
  have origin : ReadFrom ids t (complete .select ctes branches own) :=
    ⟨s, s', own, ctes, branches, hread, rfl⟩
  refine ⟨(Select.fresh_read (hfresh.sublist (List.nil_sublist _)) hread).nodup, ?_⟩
  cases ho : t.findTopLevel? Select.fromTable with
  | none =>
    have count : own.tables.length = own.joins.length := Select.read_of_no_anchor ho hread
    exact .inr ⟨.inr ⟨t, origin, ho⟩, count⟩
  | some o =>
    obtain ⟨hcount, hgrounded⟩ := Select.read_of_anchor ho hread
    exact .inl ⟨t, origin, by rw [ho]; rfl, hcount, grounded_complete hgrounded _ _ _⟩

theorem tables_of_change {kind : StatementKind} {t : Text} {statement : Statement}
    (h : Change.read kind t = .ok statement) :
    statement.query.tables = [] ∧ statement.query.joins = [] := by
  obtain ⟨text, filter, -, hquery⟩ := Change.exists_filter_of_read h
  rw [hquery]
  exact ⟨rfl, rfl⟩

theorem sound_ofOutline (ids : IdSource σ) (outline : Outline) {used : List String} {s s' : σ}
    {statement : Statement} (hfresh : ids.Fresh used s)
    (hread : (ofOutline ids outline).run s = (.ok statement, s')) :
    ids.Fresh used s' ∧ ∀ q, statement.query.Reaches q → Sound ids q := by
  refine reached_of_ofOutline (fun hfresh hown => ?_) (fun hchange ctes => ?_) hfresh hread
  · exact ⟨(Select.fresh_read hfresh hown).sublist (List.sublist_append_left _ _),
      sound_complete hfresh hown⟩
  · obtain ⟨hnone, hjoins⟩ := tables_of_change hchange
    simp [Sound, complete, hnone, hjoins]

theorem conditions_complete (kind : StatementKind) (ctes : List (CommonTable Query))
    (branches : List (SetBranch Query)) (own : Query) (clause : FilterClause) :
    (complete kind ctes branches own).conditions clause = own.conditions clause := by
  cases clause <;> rfl

/-- Whatever text is read, the conditions of each query are stated by parts of it, in one scope. -/
theorem statedIn_of_read {sql : Text} {statement : Statement}
    (hread : (read ids sql).run s = (.ok statement, s')) {q : Query}
    (hq : statement.query.Reaches q) :
    ∃ scope, ∀ clause, ∀ c ∈ q.conditions clause, c.StatedIn scope := by
  refine (reached_of_ofOutline (I := fun _ => True)
    (P := fun q => ∃ scope, ∀ clause, ∀ c ∈ q.conditions clause,
      c.StatedIn scope) (fun _ hown => ?_)
    (fun hchange ctes => ?_) trivial hread).2 q hq
  · simp only [conditions_complete]
    exact ⟨trivial, fun _ _ => Select.statedIn_read hown⟩
  · simp only [conditions_complete]
    exact ⟨.empty, fun clause => Change.statedIn_read hchange clause⟩

theorem within_of_read {sql : Text} {statement : Statement}
    (hread : (read ids sql).run s = (.ok statement, s')) {q : Query}
    (hq : statement.query.Reaches q) (clause : FilterClause) :
    ∀ c ∈ q.conditions clause, c.Within q.tables := by
  refine (reached_of_ofOutline (I := fun _ => True)
    (P := fun q => ∀ c ∈ q.conditions clause, c.Within q.tables) (fun _ hown => ?_)
      (fun hchange ctes => ?_)
    trivial hread).2 q hq
  · refine ⟨trivial, fun ctes unions => ?_⟩
    rw [conditions_complete]
    exact Select.within_read hown clause
  · rw [conditions_complete]
    exact Change.within_read hchange clause

/-- Whatever text is read, with ids that do not repeat: tables have ids of their own in every query
of the result, at any depth. A query with a table behind `FROM` has a join for every further table,
leading to it from that table or an earlier one; it refers to its own tables throughout, and no
finding is about an id. Without a table behind `FROM` a query has as many joins as tables. -/
theorem references_of_read {ids : IdSource σ} {s s' : σ} {sql : Text} {statement : Statement}
    (hfresh : ∀ stems, (ids.nextAll stems s).1.Nodup)
    (hread : (read ids sql).run s = (.ok statement, s')) {q : Query}
    (hq : statement.query.Reaches q) :
    (q.tables.map (·.id)).Nodup ∧
      ((∃ t, ReadFrom ids t q ∧ (t.findTopLevel? Select.fromTable).isSome ∧
          q.tables.length = q.joins.length + 1 ∧ q.Grounded ∧
          ∀ f ∈ q.ownFindings, f.concernsId = false) ∨
        ((q.tables = [] ∨ ∃ t, ReadFrom ids t q ∧ t.findTopLevel? Select.fromTable = none) ∧
          q.tables.length = q.joins.length)) := by
  obtain ⟨hnodup, hsound⟩ :=
    (sound_ofOutline ids _ (IdSource.fresh_nil_iff.mpr hfresh) hread).2 q hq
  refine ⟨hnodup, hsound.imp ?_ id⟩
  rintro ⟨t, origin, hanchor, hcount, hgrounded⟩
  exact ⟨t, origin, hanchor, hcount, hgrounded, fun f hf => hgrounded.concernsId_eq_false hnodup hf⟩

/-- Two joined tables, the second with an alias. -/
theorem grounded_joined_tables :
    ∃ statement s',
    (read .sequential "SELECT t.a FROM t JOIN u x ON x.a = t.a WHERE b > 1".toList).run
        (.fresh 1) = (.ok statement, s') ∧
      statement.query.tables.length = 2 ∧ statement.query.Grounded := by
  have readable : Readable "SELECT t.a FROM t JOIN u x ON x.a = t.a WHERE b > 1".toList :=
    .of_short (by decide) (by decide)
  obtain ⟨statement, s', hread, -⟩ := yields_read .sequential readable (.fresh 1)
  have counts : (match ((read .sequential
        "SELECT t.a FROM t JOIN u x ON x.a = t.a WHERE b > 1".toList).run (.fresh 1)).1 with
      | .ok statement =>
        decide (statement.query.tables.length = 2 ∧ statement.query.joins.length = 1)
      | .error _ => false) = true := by
    decide +kernel
  rw [hread] at counts
  obtain ⟨htables, hjoins⟩ := of_decide_eq_true counts
  refine ⟨statement, s', hread, htables, ?_⟩
  rcases (references_of_read (IdSource.fresh_sequential _) hread .refl).2 with
    ⟨-, -, -, -, hgrounded, -⟩ | ⟨-, hcount⟩
  · exact hgrounded
  · omega

end Statement

end SqlCanvas
