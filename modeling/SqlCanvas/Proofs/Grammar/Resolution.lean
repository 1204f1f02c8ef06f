import SqlCanvas.Proofs.Grammar.Comparison
import SqlCanvas.Proofs.Grammar.Ending
import SqlCanvas.Proofs.Grammar.Plain
import SqlCanvas.Proofs.Grammar.Statement
import SqlCanvas.Proofs.Pairing
import SqlCanvas.Proofs.Statement.Naming
import SqlCanvas.Proofs.Statement.Reference

/-!
# What qualifiers stand for

Tables enter the scope one by one, each under its full name, the last part of its name and its
alias. A later table takes over the names it shares with earlier ones, also where an earlier table
is known to the statement by just that name. So a qualifier stands for the last table that goes by
it, among all tables of the statement or, behind `ON`, among those up to the joined one.
-/

namespace SqlCanvas

open Text Nesting Pattern

namespace Select

/-- The written join stands behind `k` others, read in the scope of the tables up to its own. -/
def Sources.Holds (sources : Sources) (k : Nat) (j : WrittenJoin) : Prop :=
  ∃ lookup id table, Named lookup (sources.tables.take (k + 2)) ∧
    sources.tables[k + 1]? = some (newTable table j.table.name.text j.table.aliasText) ∧
    sources.joins[k]? = some {
      id := id
      fromTableId := (j.readsFrom ⟨lookup, sources.scope.anchor⟩ table).getD ""
      toTableId := table
      kind := j.joinKind
      conditions := (j.predicates lookup table).map (·.toCondition) }

/-- Tables and joins stand in order, and names are entered. -/
structure Sources.Ordered (sources : Sources) : Prop where
  named : Named sources.scope.lookup sources.tables
  count : sources.tables.length = sources.joins.length + 1

/-- What is there stays where it is when more tables and joins enter. -/
structure Sources.Extends (later sources : Sources) : Prop where
  tables : sources.tables <+: later.tables
  joins : sources.joins <+: later.joins
  anchor : later.scope.anchor = sources.scope.anchor

variable {sources later : Sources}

theorem Sources.Extends.refl (sources : Sources) : sources.Extends sources :=
  ⟨List.prefix_rfl, List.prefix_rfl, rfl⟩

theorem Sources.Extends.trans {last : Sources} (h₁ : last.Extends later)
    (h₂ : later.Extends sources) : last.Extends sources :=
  ⟨h₂.tables.trans h₁.tables, h₂.joins.trans h₁.joins, h₁.anchor.trans h₂.anchor⟩

theorem Sources.Holds.extends {k : Nat} {j : WrittenJoin} (h : sources.Holds k j)
    (hext : later.Extends sources) : later.Holds k j := by
  obtain ⟨lookup, id, table, hnamed, htable, hjoin⟩ := h
  obtain ⟨⟨ts, hts⟩, ⟨js, hjs⟩, hanchor⟩ := hext
  have hk : k + 1 < sources.tables.length := (List.getElem?_eq_some_iff.mp htable).1
  refine ⟨lookup, id, table, ?_, ?_, ?_⟩
  · rwa [← hts, List.take_append_of_le_length (by omega)]
  · rw [← hts, List.getElem?_append_left hk, htable]
  · rw [← hjs, List.getElem?_append_left (List.getElem?_eq_some_iff.mp hjoin).1, hjoin, hanchor]

theorem Sources.Ordered.join (h : sources.Ordered) (table id : String) (j : WrittenJoin) :
    (sources.join table id j).Ordered ∧ (sources.join table id j).Extends sources ∧
      (sources.join table id j).Holds sources.joins.length j := by
  have named : Named (sources.scope.lookup.register j.table.name.text j.table.aliasText table)
      (sources.tables ++ [newTable table j.table.name.text j.table.aliasText]) :=
    h.named.register table _ _
  refine ⟨⟨named, ?_⟩, ⟨List.prefix_append _ _, List.prefix_append _ _, rfl⟩, ?_⟩
  · simp [Sources.join, Sources.enter, h.count]
  · refine ⟨_, id, table, ?_, ?_, List.getElem?_concat_length⟩
    · rw [Sources.join, Sources.enter, List.take_of_length_le (by simp [h.count])]
      exact named
    · rw [Sources.join, Sources.enter, ← h.count]
      exact List.getElem?_concat_length

theorem Sources.Ordered.joinAll (h : sources.Ordered) {names : List String} {js : WrittenJoins}
    (hlength : names.length = (joinStems js).length) :
    (sources.joinAll names js).Ordered ∧ (sources.joinAll names js).Extends sources ∧
      (sources.joinAll names js).joins.length = sources.joins.length + js.length ∧
      ∀ m g j, js[m]? = some (g, j) →
      (sources.joinAll names js).Holds (sources.joins.length + m) j := by
  induction js generalizing sources names with
  | nil =>
    cases names with
    | cons => simp [joinStems] at hlength
    | nil => exact ⟨h, .refl sources, rfl, nofun⟩
  | cons j js ih =>
    match names, hlength with
    | table :: id :: names, hlength =>
      obtain ⟨hordered, hextends, hholds⟩ := h.join table id j.2
      have count : (sources.join table id j.2).joins.length = sources.joins.length + 1 := by
        simp [Sources.join, Sources.enter]
      obtain ⟨hordered', hextends', hcount', hholds'⟩ :=
        ih hordered (by simpa [joinStems] using hlength)
      refine ⟨hordered', hextends'.trans hextends, ?_, fun m g j' hj' => ?_⟩
      · rw [Sources.joinAll, hcount', count, List.length_cons]
        omega
      · cases m with
        | zero =>
          cases hj'
          exact hholds.extends hextends'
        | succ m =>
          have := hholds' m g j' hj'
          rwa [count, Nat.add_assoc, Nat.add_comm 1 m] at this

end Select

namespace WrittenTable

/-- The table is entered under the name. -/
def GoesBy (t : WrittenTable) (name : Text) : Prop :=
  lower name ∈ (Lookup.labels t.name.text t.aliasText).map lower

/-- The table carries the names that are written. -/
def IsHeldAs (t : WrittenTable) (u : TableRef) : Prop :=
  u.name = String.ofList t.name.text ∧ u.aliasName = Select.optionalString t.aliasText

theorem IsHeldAs.goesBy_iff {t : WrittenTable} {u : TableRef} (h : t.IsHeldAs u) (name : Text) :
    u.GoesBy name ↔ t.GoesBy name := by
  rw [TableRef.GoesBy, GoesBy, h.1, h.2, String.toList_ofList]
  cases t.aliasText <;> simp [Select.optionalString]

def reference (t : WrittenTable) : Text :=
  t.aliasText.getD t.name.text

theorem IsHeldAs.reference_eq {t : WrittenTable} {u : TableRef} (h : t.IsHeldAs u) :
    u.reference.toList = t.reference := by
  rw [TableRef.reference, h.1, h.2, reference, aliasText]
  cases ha : t.aliasName with
  | none => simp [Select.optionalString, nonempty?]
  | some a =>
    have hne : String.ofList a.name.text ≠ "" := by
      intro he
      exact a.name.isName.1 (by simpa using congrArg String.toList he)
    simp [Select.optionalString, nonempty?, hne]

end WrittenTable

section

variable {ts : List WrittenTable} {us : List TableRef}
  (held : List.Forall₂ WrittenTable.IsHeldAs ts us)

include held

theorem namesApart_iff_of_held :
    NamesApart us ↔ ts.Pairwise fun t u => ∀ name, t.GoesBy name → ¬ u.GoesBy name :=
  (pairwise_iff_of_forall₂ held fun ht hu =>
    forall_congr' fun name => by rw [ht.goesBy_iff, hu.goesBy_iff]).symm

theorem referencesApart_iff_of_held :
    ReferencesApart us ↔ ts.Pairwise fun t u => ¬ u.GoesBy t.reference :=
  (pairwise_iff_of_forall₂ held fun ht hu => by rw [ht.reference_eq, hu.goesBy_iff]).symm

end

namespace WrittenSelect

def tables (s : WrittenSelect) : List WrittenTable :=
  s.table :: s.joins.map (·.2.table)

/-- The tables and joins of a statement, once enough ids are there for them. -/
structure Places (s : WrittenSelect) (sources : Select.Sources) : Prop where
  ordered : sources.Ordered
  anchor : ∃ id, sources.tables.head? =
    some (Select.newTable id s.table.name.text s.table.aliasText) ∧ sources.scope.anchor = some id
  count : sources.joins.length = s.joins.length
  joins : ∀ m g j, s.joins[m]? = some (g, j) → sources.Holds m j

theorem places_sources (s : WrittenSelect) {names : List String}
    (hlength : names.length = s.stems.length) : s.Places (s.sources names) := by
  cases names with
  | nil => simp [stems] at hlength
  | cons id names =>
    have start : (s.startSources id).Ordered := by
      refine ⟨?_, rfl⟩
      have empty : Select.Named [] [] := fun _ => rfl
      exact empty.register id s.table.name.text s.table.aliasText
    obtain ⟨hordered, hextends, hcount, hholds⟩ := start.joinAll (by simpa [stems] using hlength)
    refine ⟨hordered, ⟨id, ?_, hextends.anchor⟩, ?_, fun m g j hj => ?_⟩
    · obtain ⟨ts, hts⟩ := hextends.tables
      rw [sources, ← hts]
      rfl
    · rw [sources, hcount]
      exact Nat.zero_add _
    · have := hholds m g j hj
      rwa [show (s.startSources id).joins.length = 0 from rfl, Nat.zero_add] at this

end WrittenSelect

theorem IdSource.length_nextAll {σ : Type} (ids : IdSource σ) (stems : List String) (s : σ) :
    (ids.nextAll stems s).1.length = stems.length := by
  induction stems generalizing s with
  | nil => rfl
  | cons stem stems ih =>
    rw [nextAll, List.length_cons, List.length_cons, ih]

def WrittenFilter.conjuncts : WrittenFilter → List Conjunct
  | all c => c.items
  | any a _ => a.items.flatMap fun b => b.conjunction.items

theorem mem_readConjuncts {scope : Scope} {cs : List Conjunct} {found : List FilterCondition}
    (h : readConjuncts scope cs = .ok found) {c : Conjunct} (hc : c ∈ cs)
    {condition : FilterCondition}
    (hread : Filter.readCondition scope c.text = .ok (some condition)) : condition ∈ found := by
  rw [readConjuncts] at h
  cases hall : cs.mapM fun c => Filter.readCondition scope c.text with
  | error e =>
    rw [hall] at h
    cases h
  | ok all =>
    rw [hall] at h
    cases h
    obtain ⟨i, hi⟩ := List.getElem?_of_mem hc
    obtain ⟨x, hx, heq⟩ := exists_getElem?_of_mapM hall hi
    rw [hread] at heq
    cases heq
    exact List.mem_filterMap.mpr ⟨_, List.mem_of_getElem? hx, rfl⟩

theorem WrittenFilter.mem_conditions {scope : Scope} {f : WrittenFilter} {g : FilterGroup}
    (h : f.readWith scope = .ok g) {c : Conjunct} (hc : c ∈ f.conjuncts)
    {condition : FilterCondition}
    (hread : Filter.readCondition scope c.text = .ok (some condition)) :
    condition ∈ g.toNode.conditions := by
  -- A disjunction is read branch by branch, and a branch of one condition is that condition.
  cases f with
  | all a =>
    rw [readWith] at h
    cases hfound : readConjuncts scope a.items with
    | error e => rw [hfound] at h; cases h
    | ok found =>
      rw [hfound] at h
      cases h
      simpa [FilterGroup.toNode, FilterNode.conditions, Filter.conditionsAll_map] using
        mem_readConjuncts hfound hc hread
  | any a several =>
    obtain ⟨b, hb, hc⟩ := List.mem_flatMap.mp hc
    rw [readWith] at h
    cases hall : a.items.mapM fun b => (readConjuncts scope b.conjunction.items).map b.nodes with
    | error e => rw [hall] at h; cases h
    | ok children =>
      rw [hall] at h
      cases h
      obtain ⟨i, hi⟩ := List.getElem?_of_mem hb
      obtain ⟨nodes, hnodes, heq⟩ := exists_getElem?_of_mapM hall hi
      cases hfound : readConjuncts scope b.conjunction.items with
      | error e => rw [hfound] at heq; cases heq
      | ok found =>
        rw [hfound] at heq
        cases heq
        simp only [FilterGroup.toNode, FilterNode.conditions, Filter.conditionsAll_flatten]
        refine List.mem_flatMap.mpr ⟨_, List.mem_of_getElem? hnodes, ?_⟩
        have found := mem_readConjuncts hfound hc hread
        rw [WrittenBranch.nodes]
        split
        · simpa [Filter.conditionsAll_map] using found
        · simpa [FilterNode.conditionsAll, FilterNode.conditions, Filter.conditionsAll_map]
            using found

namespace WrittenSelect

variable {σ : Type} {ids : IdSource σ} {st st' : σ} {s : WrittenSelect} {q : Query}

/-- What a statement is read as comes from its tables and joins, its list and its clauses. -/
theorem exists_of_read (hread : (Select.read ids s.text).run st = (.ok q, st')) :
    ∃ sources rest, s.Places sources ∧
      Select.readParts sources.scope (some (textOf s.columns)) s.readClauses = .ok rest ∧
      q = { Select.assemble none (some (textOf s.columns)) s.readClauses sources rest with
        distinct := s.distinct.isSome } := by
  rw [s.read_eq ids st] at hread
  obtain ⟨hquery, -⟩ := Prod.mk.inj hread
  have places := s.places_sources (ids.length_nextAll s.stems st)
  refine ⟨s.sources (ids.nextAll s.stems st).1, ?_⟩
  change s.query (s.sources (ids.nextAll s.stems st).1) = _ at hquery
  rw [query] at hquery
  cases hparts : Select.readParts (s.sources (ids.nextAll s.stems st).1).scope
      (some (textOf s.columns)) s.readClauses with
  | error e =>
    rw [hparts] at hquery
    cases hquery
  | ok rest =>
    rw [hparts] at hquery
    cases hquery
    exact ⟨rest, places, rfl, rfl⟩

theorem body?_readClauses (s : WrittenSelect) (keyword : String) :
    s.readClauses.body? keyword = s.clauses.body? keyword := rfl

theorem lastNamed?_tickedTables (columnsText : Option Text) (tables : List TableRef) (name : Text) :
    (lastNamed? (Select.tickedTables columnsText tables) name).map (·.id) =
      (lastNamed? tables name).map (·.id) := by
  rw [Select.tickedTables]
  split
  · have :=
      lastNamed?_map (f := fun t => { t with selectedColumns := ["*"] }) (fun _ _ => Iff.rfl)
        tables name
    rw [this, Option.map_map]
    rfl
  · rfl

theorem exists_filter_of_readParts {scope : Scope} {columnsText : Option Text} {rest : Select.Rest}
    (h : Select.readParts scope columnsText s.readClauses = .ok rest) {clause : FilterClause}
    {f : WrittenFilter} (hbody : s.clauses.body? clause.keyword = some (textOf f.tokens)) :
    ∃ g, f.readWith scope = .ok g ∧
      (match clause with | .where => rest.filters | .having => rest.having) = some g := by
  obtain ⟨columns, -, h⟩ := exists_of_bind_eq_ok h
  obtain ⟨filters, hfilters, h⟩ := exists_of_bind_eq_ok h
  obtain ⟨having, hhaving, h⟩ := exists_of_bind_eq_ok h
  obtain ⟨limits, -, h⟩ := exists_of_bind_eq_ok h
  cases h
  have read {found : Option FilterGroup}
      (hread : Select.readFilter? scope (s.clauses.body? clause.keyword) = .ok found) :
      ∃ g, f.readWith scope = .ok g ∧ found = some g := by
    rw [hbody] at hread
    obtain ⟨g, hg, hfound⟩ := exists_of_bind_eq_ok hread
    cases hfound
    rw [WrittenFilter.read_eq] at hg
    exact ⟨g, hg, rfl⟩
  cases clause with
  | «where» => exact read hfilters
  | having => exact read hhaving

/-- Everything written behind a qualifier belongs to the table with the id. -/
structure Attributes (s : WrittenSelect) (q : Query) (name : Ident) (id : String) : Prop where
  columns : ∀ l : Listing, s.columns = l.tokens → ∀ (k : Nat) (i : WrittenItem),
    l.items[k]? = some i.item → i.ref.qualifier = some name →
      ∃ c : SelectedColumn, q.selectedColumns[k]? = some c ∧ c.tableId = id
  conditions : ∀ (clause : FilterClause) (f : WrittenFilter),
    s.clauses.body? clause.keyword = some (textOf f.tokens) → ∀ w : WrittenCondition,
      w.conjunct ∈ f.conjuncts → ∀ column, w.operand = .column ⟨some name, column⟩ →
        ⟨some id, String.ofList column.text, w.tail.operator, .scalar w.tail.value, .null⟩ ∈
          q.conditions clause
  groups : ∀ l : Listing, s.clauses.body? "GROUP BY" = some l.text → ∀ (k : Nat) (column : Ident),
    l.items[k]? = some (Ref.item ⟨some name, column⟩) →
      ∃ g : GroupClause, q.groupBy = some g ∧
      g.columns[k]? = some ⟨some id, String.ofList column.text⟩
  order : ∀ l : Listing, s.clauses.body? "ORDER BY" = some l.text → ∀ o : WrittenOrder,
    o.item ∈ l.items → ∀ column, o.column = ⟨some name, column⟩ →
      ∃ os, q.orderBy = some os ∧ ⟨some id, String.ofList column.text, o.readDirection⟩ ∈ os

section Found

variable {sources : Select.Sources} {rest : Select.Rest} {name : Ident} {id : String}
variable (hparts : Select.readParts sources.scope (some (textOf s.columns)) s.readClauses =
  .ok rest)
variable (hid : sources.scope.lookup.find? name.text = some id)

include hid in
theorem tableIn_of_find? (column : Ident) :
    (⟨some name, column⟩ : Ref).tableIn sources.scope = some id := by
  simp [Ref.tableIn, Scope.table, hid]

include hid in
theorem resolve_of_find? (aliases : List Text) (column : Ident) :
    sources.scope.resolve aliases (⟨some name, column⟩ : Ref).text = (some id, column.text) := by
  rw [Ref.resolve_text, tableIn_of_find? hid]
  simp

include hparts hid in
theorem selected_of_find? {l : Listing} (hl : s.columns = l.tokens) {k : Nat} {i : WrittenItem}
    (hk : l.items[k]? = some i.item) (hi : i.ref.qualifier = some name) :
    ∃ c : SelectedColumn, rest.columns[k]? = some c ∧ c.tableId = id := by
  obtain ⟨columns, hcolumns, hparts⟩ := exists_of_bind_eq_ok hparts
  obtain ⟨filters, -, hparts⟩ := exists_of_bind_eq_ok hparts
  obtain ⟨having, -, hparts⟩ := exists_of_bind_eq_ok hparts
  obtain ⟨limits, -, hparts⟩ := exists_of_bind_eq_ok hparts
  cases hparts
  have star := Listing.text_ne_star (List.mem_of_getElem? hk)
  rw [hl, show textOf l.tokens = l.text from rfl, Listing.readColumns_text _ star] at hcolumns
  obtain ⟨c, hc, hread⟩ := exists_getElem?_of_mapM hcolumns hk
  rw [i.readColumn_eq] at hread
  cases hread
  refine ⟨_, hc, ?_⟩
  obtain ⟨x, hx⟩ : ∃ x : Ref, i.ref = x := ⟨_, rfl⟩
  obtain ⟨qualifier, column⟩ := x
  rw [hx] at hi
  obtain rfl : qualifier = some name := hi
  rw [i.tableId_selected, hx, tableIn_of_find? hid]
  rfl

include hparts hid in
theorem condition_of_find? {clause : FilterClause} {f : WrittenFilter}
    (hbody : s.clauses.body? clause.keyword = some (textOf f.tokens)) {w : WrittenCondition}
    (hw : w.conjunct ∈ f.conjuncts) {column : Ident}
    (hcolumn : w.operand = .column ⟨some name, column⟩) :
    ⟨some id, String.ofList column.text, w.tail.operator, .scalar w.tail.value, .null⟩ ∈
      (Select.assemble none (some (textOf s.columns)) s.readClauses sources rest).conditions
        clause := by
  obtain ⟨g, hg, hrest⟩ := exists_filter_of_readParts hparts hbody
  have mem := WrittenFilter.mem_conditions hg hw (w.readCondition_eq sources.scope)
  have condition : w.condition sources.scope =
      ⟨some id, String.ofList column.text, w.tail.operator, .scalar w.tail.value, .null⟩ := by
    rw [WrittenCondition.condition, hcolumn]
    simp [Operand.table, Operand.columnText, tableIn_of_find? hid]
  rw [condition] at mem
  cases clause with
  | «where» =>
    have hrest : rest.filters = some g := hrest
    simpa [Query.conditions, Select.assemble, hrest] using mem
  | having =>
    have hrest : rest.having = some g := hrest
    simpa [Query.conditions, Select.assemble, Select.bind_having_grouping, hrest] using mem

include hid in
theorem groupColumns_of_find? {l : Listing} {k : Nat} {column : Ident}
    (hk : l.items[k]? = some (Ref.item ⟨some name, column⟩)) (aliases : List Text) :
    (Select.groupColumns sources.scope aliases l.text)[k]? =
      some ⟨some id, String.ofList column.text⟩ := by
  have item : Select.groupColumn sources.scope aliases (Ref.item ⟨some name, column⟩).text =
      ⟨some id, String.ofList column.text⟩ := by
    change Select.groupColumn sources.scope _ (⟨some name, column⟩ : Ref).text = _
    rw [Select.groupColumn, resolve_of_find? hid]
  simp only [Listing.groupColumns_text, List.getElem?_map, hk, Option.map_some, item]

include hid in
theorem mem_orderItems_of_find? {l : Listing} {o : WrittenOrder} (ho : o.item ∈ l.items)
    {column : Ident} (hcolumn : o.column = ⟨some name, column⟩) (aliases : List Text) :
    ⟨some id, String.ofList column.text, o.readDirection⟩ ∈
      Select.orderItems sources.scope aliases l.text := by
  rw [Listing.orderItems_text]
  refine List.mem_filterMap.mpr ⟨o.item, ho, ?_⟩
  rw [o.readOrderItem_eq, hcolumn, resolve_of_find? hid]

include hparts hid in
theorem attributes_of_find? :
    s.Attributes { Select.assemble none (some (textOf s.columns)) s.readClauses sources rest with
      distinct := s.distinct.isSome } name id where
  columns l hl k i hk hi := selected_of_find? hparts hid hl hk hi
  conditions clause f hbody w hw column hcolumn := condition_of_find? hparts hid hbody hw hcolumn
  groups l hbody k column hk := by
    have body : s.readClauses.body? "GROUP BY" = some l.text := hbody
    refine ⟨⟨Select.groupColumns sources.scope (Select.aliasesOf rest.columns) l.text,
      rest.having.map (·.toNode)⟩, by simp [Select.assemble, Select.grouping, body], ?_⟩
    exact groupColumns_of_find? hid hk _
  order l hbody o ho column hcolumn := by
    have body : s.readClauses.body? "ORDER BY" = some l.text := hbody
    refine ⟨Select.orderItems sources.scope (Select.aliasesOf rest.columns) l.text,
      by simp [Select.assemble, body], ?_⟩
    exact mem_orderItems_of_find? hid ho hcolumn _

end Found

theorem Places.held {sources : Select.Sources} (places : s.Places sources) :
    List.Forall₂ WrittenTable.IsHeldAs s.tables sources.tables := by
  obtain ⟨ordered, ⟨id, hhead, -⟩, hcount, hjoins⟩ := places
  refine List.forall₂_iff_get.mpr ⟨?_, fun i h₁ h₂ => ?_⟩
  · rw [ordered.count, hcount, tables, List.length_cons, List.length_map]
  · have found : sources.tables[i]? = some (sources.tables.get ⟨i, h₂⟩) :=
      List.getElem?_eq_getElem h₂
    cases i with
    | zero =>
      rw [← List.head?_eq_getElem?, hhead] at found
      rw [← Option.some.inj found]
      exact ⟨rfl, rfl⟩
    | succ m =>
      have hm : m < s.joins.length := by simpa [tables] using h₁
      obtain ⟨lookup, join, table, -, htable, -⟩ := hjoins m _ _ (List.getElem?_eq_getElem hm)
      rw [htable] at found
      rw [← Option.some.inj found]
      have same : s.tables.get ⟨m + 1, h₁⟩ = s.joins[m].2.table := by simp [tables]
      rw [same]
      exact ⟨rfl, rfl⟩

theorem forall₂_tickedTables {ts : List WrittenTable} {us : List TableRef}
    (h : List.Forall₂ WrittenTable.IsHeldAs ts us) (columnsText : Option Text) :
    List.Forall₂ WrittenTable.IsHeldAs ts (Select.tickedTables columnsText us) := by
  rw [Select.tickedTables]
  split
  · exact List.forall₂_map_right_iff.mpr h
  · exact h

theorem take_tickedTables (columnsText : Option Text) (us : List TableRef) (n : Nat) :
    (Select.tickedTables columnsText us).take n = Select.tickedTables columnsText (us.take n) := by
  rw [Select.tickedTables, Select.tickedTables]
  split
  · rw [List.map_take]
  · rfl

theorem held_of_read {own : Query} (hread : (Select.read ids s.text).run st = (.ok own, st')) :
    List.Forall₂ WrittenTable.IsHeldAs s.tables own.tables := by
  obtain ⟨sources, rest, places, -, rfl⟩ := exists_of_read hread
  exact forall₂_tickedTables places.held _

/-- A join is read in the scope of the tables up to the joined one. -/
theorem exists_join_of_read {own : Query} (hread : (Select.read ids s.text).run st = (.ok own, st'))
    {m : Nat} {g : Gap} {j : WrittenJoin} (hj : s.joins[m]? = some (g, j)) :
    ∃ (lookup : Lookup) (id : String) (table : TableRef), Select.Named lookup
      (own.tables.take (m + 2)) ∧ own.tables[m + 1]? = some table ∧ own.joins[m]? = some {
        id := id
        fromTableId := (j.readsFrom ⟨lookup, own.tables.head?.map (·.id)⟩ table.id).getD ""
        toTableId := table.id
        kind := j.joinKind
        conditions := (j.predicates lookup table.id).map (·.toCondition) } := by
  obtain ⟨sources, rest, places, -, rfl⟩ := exists_of_read hread
  obtain ⟨lookup, id, table, hnamed, htable, hjoin⟩ := places.joins m g j hj
  obtain ⟨anchor, hhead, hanchor⟩ := places.anchor
  have listed := Select.map_id_tickedTables (some (textOf s.columns)) sources.tables
  have head : (Select.tickedTables (some (textOf s.columns)) sources.tables).head?.map (·.id) =
      some anchor := by
    rw [← List.head?_map, listed, List.head?_map, hhead]
    rfl
  obtain ⟨u, hu, hid⟩ : ∃ u,
    (Select.tickedTables (some (textOf s.columns)) sources.tables)[m + 1]? = some u ∧
      u.id = table := by
    have := congrArg (·[m + 1]?) listed
    simp only [List.getElem?_map, htable, Option.map_some, Option.map_eq_some_iff] at this
    exact this
  refine ⟨lookup, id, u, fun name => ?_, hu, ?_⟩
  · rw [hnamed name, ← lastNamed?_tickedTables (some (textOf s.columns)), ← take_tickedTables]
    rfl
  · rw [hid]
    change sources.joins[m]? = _
    rw [hjoin, hanchor, ← head]
    rfl

/-- Every comparison behind the `ON` of a join is read in the scope of the tables up to the joined
one, before it is turned to read from the earlier table. -/
structure JoinAttributes (s : WrittenSelect) (q : Query) : Prop where
  sides : ∀ m g j, s.joins[m]? = some (g, j) → ∃ lookup : Lookup, ∃ join, q.joins[m]? = some join ∧
    join.conditions = (j.predicates lookup join.toTableId).map (·.toCondition) ∧
    ∀ c : WrittenComparison, Select.OnPredicate.read? lookup c.conjunct.text = some {
      left := (lastNamed? (q.tables.take (m + 2)) c.left.qualifier.text).map (·.id)
      leftColumn := String.ofList c.left.column.text
      operator := c.operator
      right := (lastNamed? (q.tables.take (m + 2)) c.right.qualifier.text).map (·.id)
      rightColumn := String.ofList c.right.column.text }

theorem attributes_of_read {own : Query}
    (hread : (Select.read ids s.text).run st = (.ok own, st')) :
    (∀ name t, lastNamed? own.tables (Ident.text name) = some t → s.Attributes own name t.id) ∧
      s.JoinAttributes own := by
  refine ⟨fun name t ht => ?_, ⟨fun m g j hj => ?_⟩⟩
  · obtain ⟨sources, rest, places, hparts, rfl⟩ := exists_of_read hread
    refine attributes_of_find? hparts ?_
    rw [places.ordered.named, ← lastNamed?_tickedTables (some (textOf s.columns)),
      show lastNamed? (Select.tickedTables _ _) _ = _ from ht]
    rfl
  · obtain ⟨lookup, id, table, hnamed, -, hjoin⟩ := exists_join_of_read hread hj
    refine ⟨lookup, _, hjoin, rfl, fun c => ?_⟩
    rw [c.read?_eq, WrittenComparison.predicate, hnamed, hnamed]

/-- A qualifier stands for the last table that goes by it, and behind `ON` for the last one up to
the joined table. -/
theorem qualifiers_resolved {statement : Statement}
    (hread : (Statement.read ids s.text).run st = (.ok statement, st')) :
    (∀ name t, lastNamed? statement.query.tables (Ident.text name) = some t →
        s.Attributes statement.query name t.id) ∧ s.JoinAttributes statement.query := by
  obtain ⟨own, hown, rfl⟩ := Statement.exists_of_read_select hread
  obtain ⟨attributes, joins⟩ := attributes_of_read hown
  refine ⟨fun name t ht => ?_, ⟨joins.sides⟩⟩
  have h := attributes name t ht
  refine ⟨h.columns, fun clause => ?_, h.groups, h.order⟩
  cases clause with
  | «where» => exact h.conditions .where
  | having => exact h.conditions .having

/-- A self-join. Its first table has no alias, and the second one goes by the same name. -/
theorem exists_selfJoin : ∃ s : WrittenSelect,
    s.text = "SELECT emp.id FROM emp JOIN emp m ON emp.boss = m.id".toList := by
  exact ⟨
    (let emp : Ident := (by decide : IsPlain "emp").ident
    let m : Ident := (by decide : IsPlain "m").ident
    let id : Ident := (by decide : IsPlain "id").ident
    let boss : Ident := (by decide : IsPlain "boss").ident
    let sides : WrittenComparison :=
    ⟨⟨emp, boss⟩, some .space, "=", by decide, some .space, ⟨m, id⟩⟩
    { select := .capital "SELECT" (by decide)
      gap := .space
      distinct := none
      columns := (⟨some emp, id⟩ : Ref).tokens
      solid_columns := Ref.solid _
      avoids_columns := Dotted.avoids _ (by decide)
      sourceGap := .space
      source := .capital "FROM" (by decide)
      tableGap := .space
      table := ⟨⟨emp, []⟩, by decide, none⟩
      joins := [(.space, {
        kind := none
        join := .capital "JOIN" (by decide)
        gap := .space
        table := ⟨⟨emp, []⟩, by decide, some ⟨.space, none, m⟩⟩
        on := some ⟨.space, .capital "ON" (by decide), .space, ⟨sides.conjunct, []⟩⟩ })]
      clauses := [] }),
    by decide +kernel⟩

/-- The unaliased table is out of reach: what stands behind its name belongs to the joined one. -/
theorem qualifiers_of_selfJoin : ∃ s : WrittenSelect,
    s.text = "SELECT emp.id FROM emp JOIN emp m ON emp.boss = m.id".toList ∧ ∃ statement st',
      (Statement.read .sequential s.text).run (.fresh 1) = (.ok statement, st') ∧
        statement.query.tables.map (·.id) = ["table_1", "table_2"] ∧
        s.Attributes statement.query (by decide : IsPlain "emp").ident "table_2" ∧
        s.JoinAttributes statement.query := by
  obtain ⟨s, htext⟩ := exists_selfJoin
  have computed : (match ((Statement.read .sequential
        "SELECT emp.id FROM emp JOIN emp m ON emp.boss = m.id".toList).run (.fresh 1)).1 with
      | .ok statement => decide (statement.query.tables.map (·.id) = ["table_1", "table_2"] ∧
          (lastNamed? statement.query.tables "emp".toList).map (·.id) = some "table_2")
      | .error _ => false) = true := by
    decide +kernel
  rw [← htext] at computed
  cases hread : (Statement.read .sequential s.text).run (.fresh 1) with
  | mk result st' =>
    rw [hread] at computed
    cases result with
    | error e => cases computed
    | ok statement =>
      obtain ⟨tables, named⟩ := of_decide_eq_true computed
      obtain ⟨t, ht, hid⟩ := Option.map_eq_some_iff.mp named
      obtain ⟨attributes, joins⟩ := qualifiers_resolved hread
      have emp := attributes (by decide : IsPlain "emp").ident t ht
      rw [hid] at emp
      exact ⟨s, htext, statement, st', hread, tables, emp, joins⟩

end WrittenSelect

end SqlCanvas
