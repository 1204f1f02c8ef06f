import SqlCanvas.Proofs.Regeneration.Nested
import SqlCanvas.Proofs.Regeneration.OnClause
import SqlCanvas.Proofs.Regeneration.Restorable

/-!
# Statements that are written again

A `SELECT` over tables whose columns can be written: each has an alias, or a name without a schema.
Every join compares its table with earlier ones, and the filter is a conjunction of conditions on
columns. Such a statement is read as a canonical query, so writing and reading it again gives the
same query. Behind an unaliased name with a schema columns would have two points, which conditions
are not read with.
-/

namespace SqlCanvas

open Text Nesting Pattern

/-- The query without a `DISTINCT` that is not written: there is none in front of a star. -/
def Query.shown (q : Query) : Query :=
  { q with distinct := q.distinct && !q.selectedColumns.isEmpty }

theorem Query.sql_shown (q : Query) (d : Dialect) : q.shown.sql d = q.sql d := by
  have select : q.shown.selectLine = q.selectLine := by
    by_cases h : q.selectedColumns.isEmpty <;> simp [selectLine, shown, h]
  have lines (anchor : TableRef) : q.shown.ownLines d anchor = q.ownLines d anchor := by
    rw [ownLines, ownLines, select]
    rfl
  rw [sql_eq, sql_eq]
  simp only [lines]
  rfl

theorem Select.Linked.targets_eq {tables : List TableRef} {joins : List Join}
    (h : Linked tables joins) (hcount : tables.length = joins.length + 1) :
    joins.map (·.toTableId) = tables.tail.map (·.id) := by
  refine List.ext_getElem? fun k => ?_
  rw [List.getElem?_map, List.getElem?_map, List.getElem?_tail]
  cases hj : joins[k]? with
  | none =>
    have : tables[k + 1]? = none := by
      rw [List.getElem?_eq_none_iff] at hj ⊢
      omega
    rw [this]
    rfl
  | some j =>
    obtain ⟨⟨t, ht, hto⟩, -⟩ := h k j hj
    rw [ht, Option.map_some, Option.map_some, hto]

/-- The table has a plain alias, or else a plain name without a schema. -/
structure WrittenTable.Nameable (t : WrittenTable) : Prop where
  aliasName : ∀ a ∈ t.aliasName, a.name.Plain
  bare : t.aliasName = none → t.name.rest = [] ∧ t.name.first.Plain

theorem WrittenTable.Nameable.of_held {t : WrittenTable} (h : t.Nameable) {u : TableRef}
    (held : t.IsHeldAs u) : u.Nameable := by
  refine ⟨⟨t.name, t.short, ?_⟩, fun a ha => ?_, fun hnone => ?_⟩
  · rw [held.1, String.toList_ofList]
  · rw [held.2, aliasText] at ha
    cases ht : t.aliasName with
    | none => simp [ht, Select.optionalString] at ha
    | some b =>
      obtain rfl : String.ofList b.name.text = a := by simpa [ht, Select.optionalString] using ha
      exact ⟨b.name, h.aliasName b ht, String.toList_ofList.symm⟩
  · rw [held.2, aliasText] at hnone
    obtain ⟨hrest, hplain⟩ := h.bare (by simpa [Select.optionalString] using hnone)
    refine ⟨t.name.first, hplain, ?_⟩
    rw [held.1, String.toList_ofList, Dotted.text, Dotted.tokens, hrest]
    simp

/-- The table is referred to by the name, in whatever letter case. -/
def WrittenTable.IsCalled (t : WrittenTable) (name : Text) : Prop :=
  lower name = lower t.reference

/-- The comparison is between a table and an earlier one, on whatever side they stand. -/
def WrittenComparison.Connects (c : WrittenComparison) (earlier : List WrittenTable)
    (joined : WrittenTable) : Prop :=
  ∃ t ∈ earlier, (t.IsCalled c.left.qualifier.text ∧ joined.IsCalled c.right.qualifier.text) ∨
    (joined.IsCalled c.left.qualifier.text ∧ t.IsCalled c.right.qualifier.text)

namespace WrittenSelect

/-- A selection over tables whose references are apart and can be written, joined by comparisons
with earlier tables, with any clauses that are read as canonical ones. -/
structure Restorable (s : WrittenSelect) : Prop where
  apart : s.tables.Pairwise fun t u => ¬ u.GoesBy t.reference
  names : ∀ t ∈ s.tables, t.Nameable
  joins : ∀ m g (j : WrittenJoin), s.joins[m]? = some (g, j) →
    ∃ cs, j.Compares cs ∧ ∀ c ∈ cs, c.Connects (s.tables.take (m + 1)) j.table
  columns : IsSelection s.columns
  ending : ∃ e : WrittenEnding, s.clauses = e.clauses ∧ e.Restorable

variable {σ : Type} {ids : IdSource σ} {st st' : σ} {s : WrittenSelect} {own : Query}

theorem Places.covers {sources : Select.Sources} (places : s.Places sources)
    (columnsText : Option Text) :
    sources.scope.Covers (Select.tickedTables columnsText sources.tables) := by
  have known {t : TableRef} (ht : t ∈ sources.tables) :
      Known (Select.tickedTables columnsText sources.tables) t.id := by
    have mem : t.id ∈ (Select.tickedTables columnsText sources.tables).map (·.id) := by
      rw [Select.map_id_tickedTables]
      exact List.mem_map_of_mem ht
    exact List.mem_map.mp mem
  obtain ⟨id, hhead, hanchor⟩ := places.anchor
  have first := known (List.mem_of_head? hhead)
  refine ⟨⟨id, hanchor, first⟩, fun qualifier => ?_⟩
  rw [Scope.table, places.ordered.named]
  cases hlast : lastNamed? sources.tables qualifier with
  | none => exact ⟨id, hanchor, first⟩
  | some t =>
    obtain ⟨-, before, after, htables, -⟩ := lastNamed?_eq_some_iff.mp hlast
    exact ⟨t.id, rfl, known (by simp [htables])⟩

theorem Restorable.exists_read (h : s.Restorable) (ids : IdSource σ) (st : σ) :
    ∃ own st', (Select.read ids s.text).run st = (.ok own, st') := by
  have places := s.places_sources (ids.length_nextAll s.stems st)
  obtain ⟨e, hclauses, he⟩ := h.ending
  obtain ⟨rest, hparts, -⟩ := he.exists_parts h.columns (places.covers none) s.readClauses
    fun k => (s.body?_readClauses k).trans (congrArg (·.body? k) hclauses)
  obtain ⟨own, hown⟩ : ∃ own, s.query (s.sources (ids.nextAll s.stems st).1) = .ok own := by
    rw [query, hparts]
    exact ⟨_, rfl⟩
  rw [s.read_eq ids st]
  exact ⟨own, _, Prod.ext hown rfl⟩

theorem find?_of_isCalled {us : List TableRef} (hapart : ReferencesApart us) {lookup : Lookup}
    (hnamed : Select.Named lookup us) {t : WrittenTable} {u : TableRef} (hu : u ∈ us)
    (held : t.IsHeldAs u) {name : Text} (h : t.IsCalled name) :
    lookup.find? name = some u.id ∧ u.GoesBy name := by
  have called : lower name = lower u.reference.toList := by
    rw [held.reference_eq]
    exact h
  have found : lastNamed? us name = some u := by
    rw [lastNamed?_congr us called]
    exact hapart.lastNamed?_eq hu
  exact ⟨by rw [hnamed, found]; rfl, (lastNamed?_eq_some_iff.mp found).1⟩

theorem getElem?_tables_succ (s : WrittenSelect) {m : Nat} {g : Gap} {j : WrittenJoin}
    (hj : s.joins[m]? = some (g, j)) : s.tables[m + 1]? = some j.table := by
  rw [tables, List.getElem?_cons_succ, List.getElem?_map, hj]
  rfl

/-- The tables that a connecting comparison is between, with the joined one on either side. -/
theorem exists_between_of_connects {earlier us : List TableRef} {joined : TableRef}
    (hapart : ReferencesApart us) {lookup : Lookup} (hnamed : Select.Named lookup us)
    (hearlier : earlier ⊆ us) (hjoined : joined ∈ us) {ts : List WrittenTable}
    (held : List.Forall₂ WrittenTable.IsHeldAs ts earlier) {t : WrittenTable}
    (heldJoined : t.IsHeldAs joined) {c : WrittenComparison} (hc : c.Connects ts t) :
    ∃ l r, c.Between us l r ∧
      lookup.find? c.left.qualifier.text = some l.id ∧ lookup.find? c.right.qualifier.text =
        some r.id ∧ ((l ∈ earlier ∧ r = joined) ∨ (l = joined ∧ r ∈ earlier)) := by
  obtain ⟨w, hw, h⟩ := hc
  obtain ⟨u, hu, hwu⟩ := exists_of_forall₂_left held w hw
  rcases h with ⟨hleft, hright⟩ | ⟨hleft, hright⟩
  · obtain ⟨findLeft, left⟩ := find?_of_isCalled hapart hnamed (hearlier hu) hwu hleft
    obtain ⟨findRight, right⟩ := find?_of_isCalled hapart hnamed hjoined heldJoined hright
    exact ⟨u, joined, ⟨hearlier hu, hjoined, left, right⟩, findLeft, findRight, .inl ⟨hu, rfl⟩⟩
  · obtain ⟨findLeft, left⟩ := find?_of_isCalled hapart hnamed hjoined heldJoined hleft
    obtain ⟨findRight, right⟩ := find?_of_isCalled hapart hnamed (hearlier hu) hwu hright
    exact ⟨joined, u, ⟨hjoined, hearlier hu, left, right⟩, findLeft, findRight, .inr ⟨rfl, hu⟩⟩

/-- With the joined table turned to the right, a connecting comparison has an earlier table on its
left. -/
theorem exists_source_of_connects {earlier us : List TableRef} {joined : TableRef}
    (hapart : ReferencesApart us) (hids : (us.map (·.id)).Nodup) {lookup : Lookup}
    (hnamed : Select.Named lookup us) (hearlier : earlier ⊆ us)
    (hjoined : joined ∈ us) (hnew : joined ∉ earlier) {ts : List WrittenTable}
    (held : List.Forall₂ WrittenTable.IsHeldAs ts earlier) {t : WrittenTable}
    (heldJoined : t.IsHeldAs joined) {c : WrittenComparison} (hc : c.Connects ts t) :
    ∃ source ∈ earlier,
      ((c.predicate lookup).oriented joined.id).left = some source.id ∧
        ((c.predicate lookup).oriented joined.id).toCondition.Named := by
  obtain ⟨l, r, hb, hl, hr, hsides⟩ :=
    exists_between_of_connects hapart hnamed hearlier hjoined held heldJoined hc
  obtain ⟨source, hleft, hseen⟩ := WrittenComparison.exists_seenFrom hids hb hjoined hl hr
  refine ⟨source, ?_, hleft, hseen.named⟩
  generalize ((c.predicate lookup).oriented joined.id).toCondition = d at hseen
  cases hseen with
  | kept hkept =>
    rcases hsides with ⟨hl, -⟩ | ⟨hl, hr⟩
    · exact hl
    · rwa [hl, ← hkept hl]
  | turned hl hr =>
    rcases hsides with ⟨hl', -⟩ | ⟨-, hr'⟩
    · exact absurd (hl ▸ hl') hnew
    · exact hr'

theorem Restorable.source_of_read (h : s.Restorable)
    (hread : (Select.read ids s.text).run st = (.ok own, st'))
    (hfresh : ids.Fresh [""] st) {m : Nat} {g : Gap} {j : WrittenJoin}
    (hj : s.joins[m]? = some (g, j)) :
    ∃ join, own.joins[m]? = some join ∧ Known (own.tables.take (m + 1)) join.fromTableId ∧
      join.conditions ≠ [] ∧ ∀ c ∈ join.conditions, IsIdentifier c.fromColumn ∧
      IsIdentifier c.toColumn := by
  obtain ⟨lookup, id, joined, hnamed, hjoined, hjoin⟩ := exists_join_of_read hread hj
  obtain ⟨cs, hcs, hconnects⟩ := h.joins m g j hj
  have held := held_of_read hread
  have fresh : ("" :: own.tables.map (·.id)).Nodup := (Select.fresh_read hfresh hread).nodup
  obtain ⟨hempty, hids⟩ := List.nodup_cons.mp fresh
  have htake : (own.tables.take (m + 2)).Sublist own.tables := List.take_sublist _ _
  have hapart : ReferencesApart (own.tables.take (m + 2)) :=
    ((referencesApart_iff_of_held held).mpr h.apart).sublist htake
  have hmem : joined ∈ own.tables.take (m + 2) :=
    List.mem_of_getElem? (i := m + 1) (by rw [List.getElem?_take_of_lt (by omega), hjoined])
  have heldJoined : j.table.IsHeldAs joined := by
    obtain ⟨h₁, e₁⟩ := List.getElem?_eq_some_iff.mp (s.getElem?_tables_succ hj)
    obtain ⟨h₂, e₂⟩ := List.getElem?_eq_some_iff.mp hjoined
    rw [← e₁, ← e₂]
    exact held.get h₁ h₂
  have seen (c : WrittenComparison) (hc : c ∈ cs) :=
    exists_source_of_connects hapart (hids.sublist (htake.map _))
      hnamed (List.take_subset_take_left _ (by omega)) hmem
      (not_mem_take_of_nodup (List.Nodup.of_map _ hids) hjoined) (List.forall₂_take _ held)
        heldJoined (hconnects c hc)
  have predicates := j.predicates_of_compares hcs lookup joined.id
  refine ⟨_, hjoin, ?_, ?_, ?_⟩
  · obtain ⟨c, rest, rfl⟩ := List.exists_cons_of_ne_nil hcs.ne_nil
    obtain ⟨source, hsource, hleft, -⟩ := seen c List.mem_cons_self
    have hne : source.id ≠ "" := by
      intro hid
      exact hempty (hid ▸ List.mem_map_of_mem (List.mem_of_mem_take hsource))
    refine ⟨source, hsource, ?_⟩
    rw [WrittenJoin.readsFrom_of_compares hcs hleft hne, Option.getD_some]
  · simpa [predicates] using hcs.ne_nil
  · intro c hc
    rw [predicates, List.map_map] at hc
    obtain ⟨w, hw, rfl⟩ := List.mem_map.mp hc
    obtain ⟨-, -, -, hnames⟩ := seen w hw
    exact hnames

theorem Restorable.sources_of_read (h : s.Restorable)
    (hread : (Select.read ids s.text).run st = (.ok own, st'))
    (hfresh : ids.Fresh [""] st) {k : Nat} {join : Join} (hjoin : own.joins[k]? = some join) :
    Known (own.tables.take (k + 1)) join.fromTableId ∧ join.conditions ≠ [] ∧
      ∀ c ∈ join.conditions, IsIdentifier c.fromColumn ∧ IsIdentifier c.toColumn := by
  obtain ⟨o, ho, -⟩ := s.exists_anchor
  obtain ⟨hcount, -⟩ := Select.read_of_anchor ho hread
  have length := (held_of_read hread).length_eq
  simp only [tables, List.length_cons, List.length_map] at length
  obtain ⟨hk, -⟩ := List.getElem?_eq_some_iff.mp hjoin
  obtain ⟨join', hjoin', hsource⟩ := h.source_of_read hread hfresh
    (List.getElem?_eq_getElem (l := s.joins) (i := k) (by omega))
  obtain rfl := Option.mem_unique hjoin hjoin'
  exact hsource

/-- What is read is canonical by itself, but that a `DISTINCT` in front of a star may be left. -/
theorem Restorable.flat_of_read (h : s.Restorable)
    (hread : (Select.read ids s.text).run st = (.ok own, st'))
    (hfresh : ids.Fresh [""] st) : own.shown.Flat := by
  obtain ⟨o, ho, -⟩ := s.exists_anchor
  obtain ⟨hcount, grounded⟩ := Select.read_of_anchor ho hread
  have held := held_of_read hread
  have fresh : ("" :: own.tables.map (·.id)).Nodup := (Select.fresh_read hfresh hread).nodup
  have sources (k : Nat) (join : Join) (hjoin : own.joins[k]? = some join) :=
    h.sources_of_read hread hfresh hjoin
  obtain ⟨sources', rest, places, hparts, rfl⟩ := exists_of_read hread
  obtain ⟨e, hclauses, he⟩ := h.ending
  have bodies (k : String) : s.readClauses.body? k = e.clauses.body? k :=
    (s.body?_readClauses k).trans (congrArg (·.body? k) hclauses)
  have covers := places.covers (some (textOf s.columns))
  obtain ⟨rest', hparts', hcolumns, hfilters, hhaving, hlimit, hoffset⟩ :=
    he.exists_parts h.columns covers s.readClauses bodies
  obtain rfl := Except.ok.inj (hparts'.symm.trans hparts)
  exact {
    tables := fun hnil => by
      have hnil : Select.tickedTables (some (textOf s.columns)) sources'.tables = [] := hnil
      rw [Select.assemble, hnil] at hcount
      cases hcount
    ids := (List.nodup_cons.mp fresh).2
    names := fun t ht => by
      obtain ⟨w, hw, hwt⟩ := exists_of_forall₂_right held t ht
      exact (h.names w hw).of_held hwt
    apart := (referencesApart_iff_of_held held).mpr h.apart
    targets := grounded.joins.targets_eq hcount
    sources := fun k join hjoin => (sources k join hjoin).1
    conditions := fun join hjoin => by
      obtain ⟨k, hk⟩ := List.getElem?_of_mem hjoin
      exact (sources k join hk).2
    columns := hcolumns
    distinct := fun hd hnil => by
      have hnil : rest'.columns = [] := hnil
      simp [Query.shown, Select.assemble, hnil] at hd
    filters := hfilters
    groupBy := he.canonical_grouping covers bodies _ hhaving
    orderBy := he.canonical_ordering covers bodies _
    limit := hlimit
    offset := hoffset }

end WrittenSelect

theorem Statement.complete_shown (own : Query) :
    (complete .select [] [] own).shown = complete .select [] [] own.shown :=
  rfl

theorem Query.Flat.complete {own : Query} (h : own.Flat) (ctes : List (CommonTable Query))
    (branches : List (SetBranch Query)) : (Statement.complete .select ctes branches own).Flat :=
  ⟨h.tables, h.ids, h.names, h.apart, h.targets, h.sources, h.conditions, h.columns, h.distinct,
    h.filters, h.groupBy, h.orderBy, h.limit, h.offset⟩

namespace WrittenSelect

variable {s : WrittenSelect}

/-- What is written for the query that is read is read as the same query, but for its ids and a
`DISTINCT` in front of a star: all tables, joins and conditions are there again, in their order. -/
theorem Restorable.read_again (h : s.Restorable) {σ : Type} (ids : IdSource σ) {st : σ}
    (hfresh : ids.Fresh [""] st) (d : Dialect) : ∃ q st' sql,
      (Statement.read ids s.text).run st = (.ok (.ofQuery .select q), st') ∧ q.sql d = .ok sql ∧
        Statement.ReadsAs sql.toList q.shown := by
  obtain ⟨own, st', hread⟩ := h.exists_read ids st
  have flat := h.flat_of_read hread hfresh
  have regular : (Statement.complete .select [] [] own.shown).Regular :=
    ⟨flat.complete [] [], by simp [Statement.complete], by simp [Statement.complete]⟩
  have composed : (Statement.complete .select [] [] own.shown).Composed := by
    intro r hr
    rcases Statement.reaches_complete_iff.mp hr with rfl | ⟨c, hc, -⟩ | ⟨b, hb, -⟩
    · exact regular
    · cases hc
    · cases hb
  obtain ⟨sql, hsql, hreads⟩ := composed.flattened_of_sql d
  rw [Query.flattened_eq] at hreads
  refine ⟨Statement.complete .select [] [] own, st', sql, ?_, ?_, hreads⟩
  · rw [Statement.read_select, Reading.run_bind_ok hread]
    rfl
  · rw [← Query.sql_shown, Statement.complete_shown]
    exact hsql

/-- A table with a schema and an alias, joined and filtered. -/
theorem exists_aliased : ∃ s : WrittenSelect,
    s.text = "SELECT *\nFROM s.t x\nLEFT JOIN u ON u.id = x.u\nWHERE x.a >= 1".toList ∧
    s.Restorable := by
  refine ⟨
    (let i (s : String) (h : IsPlain s) : Ident := h.ident
    let x := i "x" (by decide)
    let u := i "u" (by decide)
    let sides : WrittenComparison :=
    ⟨⟨u, i "id" (by decide)⟩, some .space, "=", by decide, some .space, ⟨x, u⟩⟩
    let condition : WrittenCondition :=
    ⟨.column ⟨some x, i "a" (by decide)⟩, (by decide : IsPlain "x").plain_ident,
      .sign (some .space) ">=" (by decide) (some .space)
        (.whole false ['1'] (by decide) (by decide) (by decide))⟩
    Draft.select {
      distinct := false
      columns := [starToken]
      solid_columns := .singleton rfl
      avoids_columns := List.forall_mem_singleton.mpr (by decide : '*' ≠ ';')
      table := ⟨⟨i "s" (by decide), [i "t" (by decide)]⟩, by decide, some ⟨.space, none, x⟩⟩
      joins := [.capital .left ⟨⟨u, []⟩, by decide, none⟩ (some ⟨sides.conjunct, []⟩)]
      ending := ⟨some (.line ["WHERE"] (by decide) (.all ⟨condition.conjunct, []⟩)), none, none,
        none, none⟩ }),
    by decide +kernel, ?_⟩
  exact {
    apart := List.pairwise_pair.mpr (by
      have : lower "x".toList ∉ (Lookup.labels "u".toList none).map lower := by decide
      exact this)
    names := by
      refine List.forall_mem_cons.mpr ⟨⟨?_, by simp [Draft.select]⟩,
        List.forall_mem_singleton.mpr ⟨?_, fun _ => ?_⟩⟩
      · rintro _ ⟨⟩
        exact (by decide : IsPlain "x").plain_ident
      · rintro _ ⟨⟩
      · exact ⟨rfl, (by decide : IsPlain "u").plain_ident⟩
    joins := by
      intro m g j hj
      cases m with
      | zero =>
        cases hj
        exact ⟨[_], ⟨_, rfl, rfl⟩,
          List.forall_mem_singleton.mpr ⟨_, List.mem_cons_self, .inr ⟨rfl, rfl⟩⟩⟩
      | succ m => cases hj
    columns := .inl rfl
    ending := by
      refine ⟨_, rfl, ?_, by simp, by simp, by simp⟩
      rintro _ ⟨⟩
      exact ⟨[_], rfl, List.forall_mem_singleton.mpr trivial⟩ }

theorem read_again_aliased : ∃ s : WrittenSelect,
    s.text = "SELECT *\nFROM s.t x\nLEFT JOIN u ON u.id = x.u\nWHERE x.a >= 1".toList ∧
    s.Restorable ∧
      ∃ q st' sql, (Statement.read .sequential s.text).run (.fresh 1) =
        (.ok (.ofQuery .select q), st') ∧
        q.sql .mysql = .ok sql ∧ Statement.ReadsAs sql.toList q.shown := by
  obtain ⟨s, htext, h⟩ := exists_aliased
  exact ⟨s, htext, h, h.read_again .sequential (IdSource.fresh_sequential_empty _) .mysql⟩

end WrittenSelect

end SqlCanvas
