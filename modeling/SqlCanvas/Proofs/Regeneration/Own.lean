import SqlCanvas.Proofs.Regeneration.Draft

/-!
# Reading canonical queries back

A canonical query by itself is read back from its text. The tables that are read are copies of its
tables under new ids, so a scope that was filled from the text knows the tables of the query, and
every part is read as it was with the new ids in it.
-/

namespace SqlCanvas

open Text Nesting Pattern

/-- The second table is the first one under the id that `f` gives to it. -/
structure TableRef.IsCopy (f : String → String) (t u : TableRef) : Prop where
  id : u.id = f t.id
  name : u.name = t.name
  aliasName : u.aliasName = t.aliasName

theorem TableRef.IsCopy.reference {f : String → String} {t u : TableRef} (h : t.IsCopy f u) :
    u.reference = t.reference := by
  rw [TableRef.reference, TableRef.reference, h.name, h.aliasName]

theorem exists_copies {ws : List WrittenTable} {ts us : List TableRef}
    (hts : List.Forall₂ WrittenTable.IsHeldAs ws ts)
    (hus : List.Forall₂ WrittenTable.IsHeldAs ws us) (hnodup : (ts.map (·.id)).Nodup) :
    ∃ f, List.Forall₂ (TableRef.IsCopy f) ts us := by
  induction hts generalizing us with
  | nil =>
    cases hus
    exact ⟨id, .nil⟩
  | @cons w t ws ts ht hts ih =>
    cases hus with
    | @cons _ u _ us hu hus =>
      obtain ⟨hout, hnodup⟩ := List.nodup_cons.mp hnodup
      obtain ⟨f, hf⟩ := ih hus hnodup
      have others : ∀ t' ∈ ts, t'.id ≠ t.id :=
        fun t' ht' heq => hout (List.mem_map.mpr ⟨t', ht', heq⟩)
      refine ⟨Function.update f t.id u.id,
        .cons ⟨?_, hu.1.trans ht.1.symm, hu.2.trans ht.2.symm⟩ ?_⟩
      · rw [Function.update_self]
      · refine ((List.forall₂_and_left _ _).mpr ⟨others, hf⟩).imp fun t' u' h => ?_
        refine ⟨?_, h.2.name, h.2.aliasName⟩
        rw [Function.update_of_ne h.1, h.2.id]

theorem knows_of_copies {f : String → String} {ts us : List TableRef}
    (h : List.Forall₂ (TableRef.IsCopy f) ts us) (hapart : ReferencesApart us) {lookup : Lookup}
    (hnamed : Select.Named lookup us) (anchor : Option String) :
    Scope.Knows ⟨lookup, anchor⟩ ts f := by
  intro t ht
  obtain ⟨u, hu, hcopy⟩ := exists_of_forall₂_left h t ht
  change lookup.find? _ = _
  rw [hnamed, ← hcopy.reference, hapart.lastNamed?_eq hu, Option.map_some, hcopy.id]

variable {q : Query} {w : Draft} {d : Dialect} {anchor : TableRef}

theorem getElem?_joins_select (w : Draft) (k : Nat) :
    w.select.joins[k]? = (w.joins[k]?).map fun j => (.line, j) :=
  List.getElem?_map

theorem Draft.States.exists_join (hw : w.States q d anchor) (h : q.Flat) {k : Nat} {j : Join}
    (hj : q.joins[k]? = some j) : ∃ j' source target, w.joins[k]? = some j' ∧
      source ∈ q.tables.take (k + 1) ∧ q.tables[k + 1]? = some target ∧ source.id = j.fromTableId ∧
        target.id = j.toTableId ∧ WrittenJoin.States j' source target j := by
  obtain ⟨hk, rfl⟩ := List.getElem?_eq_some_iff.mp hj
  have hk' : k < w.joins.length := hw.joins.length_eq ▸ hk
  obtain ⟨s, hs, t, ht, hfrom, hto, hstates⟩ := hw.joins.get hk hk'
  obtain ⟨source, hsource, target, htarget, hfrom', hto'⟩ := h.exists_sides hj
  obtain rfl : s = source :=
    List.inj_on_of_nodup_map h.ids hs (List.mem_of_mem_take hsource) (hfrom.trans hfrom'.symm)
  obtain rfl : t = target :=
    List.inj_on_of_nodup_map h.ids ht (List.mem_of_getElem? htarget) (hto.trans hto'.symm)
  exact ⟨_, s, t, List.getElem?_eq_getElem hk', hsource, htarget, hfrom, hto, hstates⟩

theorem Query.Flat.length_tables (h : q.Flat) : q.tables.length = q.joins.length + 1 := by
  have := congrArg List.length h.targets
  simp only [List.length_map, List.length_tail] at this
  have := List.length_pos_iff.mpr h.tables
  omega

theorem not_mem_take_of_nodup {A : Type} {xs : List A} (h : xs.Nodup) {k : Nat} {x : A}
    (hx : xs[k]? = some x) : x ∉ xs.take k := by
  intro hmem
  obtain ⟨i, hi, hget⟩ := List.mem_take_iff_getElem.mp hmem
  obtain ⟨hk, hget'⟩ := List.getElem?_eq_some_iff.mp hx
  have := h.getElem_inj_iff.mp (hget.trans hget'.symm)
  omega

theorem Query.Flat.not_mem_take (h : q.Flat) {k : Nat} {target : TableRef}
    (ht : q.tables[k + 1]? = some target) : target ∉ q.tables.take (k + 1) :=
  not_mem_take_of_nodup (List.Nodup.of_map _ h.ids) ht

theorem Draft.States.held (hw : w.States q d anchor) (h : q.Flat)
    (hanchor : q.tables.head? = some anchor) :
    List.Forall₂ WrittenTable.IsHeldAs w.select.tables q.tables := by
  obtain ⟨ts, htables⟩ : ∃ ts, q.tables = anchor :: ts := by
    obtain ⟨t, ts, hts⟩ := List.exists_cons_of_ne_nil h.tables
    rw [hts] at hanchor
    cases hanchor
    exact ⟨ts, hts⟩
  have length := h.length_tables
  rw [htables, List.length_cons] at length
  have tables : w.select.tables = w.table :: w.joins.map (·.table) := by
    simp [WrittenSelect.tables, select]
  rw [tables, htables]
  refine .cons hw.table
    (List.forall₂_map_left_iff.mpr (List.forall₂_iff_get.mpr ⟨?_, fun k h₁ h₂ => ?_⟩))
  · rw [← hw.joins.length_eq]
    omega
  · have hk : k < q.joins.length := hw.joins.length_eq ▸ h₁
    obtain ⟨j', source, target, hj', -, htarget, -, -, hstates⟩ :=
      hw.exists_join h (List.getElem?_eq_getElem hk)
    rw [htables, List.getElem?_cons_succ] at htarget
    obtain ⟨_, rfl⟩ := List.getElem?_eq_some_iff.mp hj'
    obtain ⟨_, rfl⟩ := List.getElem?_eq_some_iff.mp htarget
    exact hstates.table

theorem Draft.States.join_eq (hw : w.States q d anchor) (h : q.Flat) {sources : Select.Sources}
    (places : w.select.Places sources) {f : String → String}
    (copies : List.Forall₂ (TableRef.IsCopy f) q.tables sources.tables)
    (hapart : ReferencesApart sources.tables) (hids : (sources.tables.map (·.id)).Nodup)
    (hempty : "" ∉ sources.tables.map (·.id)) {k : Nat} {j : Join}
    (hj : q.joins[k]? = some j) : sources.joins[k]?.map (fun j => { j with id := "" }) =
      some { j with id := "", fromTableId := f j.fromTableId, toTableId := f j.toTableId } := by
  obtain ⟨w', source, target, hw', hsource, htarget, hfrom, hto, hstates⟩ := hw.exists_join h hj
  have written : w.select.joins[k]? = some (.line, w') := by
    rw [getElem?_joins_select, hw']
    rfl
  obtain ⟨lookup, id, table, hnamed, htable, hjoin⟩ := places.joins k _ _ written
  have first : source ∈ q.tables.take (k + 2) := (List.take_subset_take_left _ (by omega)) hsource
  have second : target ∈ q.tables.take (k + 2) :=
    List.mem_of_getElem? (i := k + 1) (by rw [List.getElem?_take_of_lt (by omega), htarget])
  have knows : Scope.Knows ⟨lookup, sources.scope.anchor⟩ (q.tables.take (k + 2)) f :=
    knows_of_copies (List.forall₂_take _ copies) (hapart.sublist (List.take_sublist _ _)) hnamed _
  have source_mem : source ∈ q.tables := List.mem_of_mem_take hsource
  have target_mem : target ∈ q.tables := List.mem_of_getElem? htarget
  have ids : q.tables.map (fun t => f t.id) = sources.tables.map (·.id) :=
    map_eq_map_of_forall₂ copies fun _ _ h => h.id.symm
  have differ : f source.id ≠ f target.id := by
    intro heq
    have same := List.inj_on_of_nodup_map (ids ▸ hids) source_mem target_mem heq
    exact h.not_mem_take htarget (same ▸ hsource)
  have named : f source.id ≠ "" := by
    intro heq
    exact hempty (ids ▸ List.mem_map.mpr ⟨source, source_mem, heq⟩)
  have joined : table = f target.id := by
    obtain ⟨hk, hget⟩ := List.getElem?_eq_some_iff.mp htarget
    obtain ⟨hk', hget'⟩ := List.getElem?_eq_some_iff.mp htable
    have copy := (copies.get hk hk').id
    rw [List.get_eq_getElem, List.get_eq_getElem, hget, hget'] at copy
    exact copy
  obtain ⟨hconditions, hreads⟩ := hstates.reads _ _ f knows first second named differ
  rw [hjoin, joined, hreads, hconditions, Option.map_some, hstates.kind, ← hfrom, ← hto]
  rfl

theorem Draft.States.joins_eq (hw : w.States q d anchor) (h : q.Flat) {sources : Select.Sources}
    (places : w.select.Places sources) {f : String → String}
    (copies : List.Forall₂ (TableRef.IsCopy f) q.tables sources.tables)
    (hapart : ReferencesApart sources.tables) (hids : (sources.tables.map (·.id)).Nodup)
    (hempty : "" ∉ sources.tables.map (·.id)) :
    (sources.joins.map fun j => { j with id := "" }) = (q.own f).joins := by
  have length : sources.joins.length = q.joins.length := by
    rw [places.count, hw.joins.length_eq]
    exact List.length_map _
  refine List.ext_getElem? fun k => ?_
  rw [List.getElem?_map, Query.own, List.getElem?_map]
  cases hj : q.joins[k]? with
  | none =>
    have : sources.joins[k]? = none := by
      rw [List.getElem?_eq_none_iff] at hj ⊢
      omega
    rw [this]
    rfl
  | some j => exact hw.join_eq h places copies hapart hids hempty hj

def Draft.filtered (w : Draft) (filter : Option (Headed ["WHERE"] WrittenFilter)) : Draft :=
  { w with ending := { w.ending with filter := filter } }

/-- Whatever filter is written, everything but the tables and joins is read as it is in the query,
except that an offset of zero may come or go. -/
theorem Draft.States.exists_query (hw : w.States q d anchor) {sources : Select.Sources}
    {f : String → String} (hf : Scope.Knows sources.scope q.tables f)
    {filter : Option (Headed ["WHERE"] WrittenFilter)} {filters : Option FilterGroup}
    (hfilter : (filter.elim (.ok none) fun h => (h.body.readWith sources.scope).map some) =
      .ok filters) :
    ∃ offset, offset.filter (· ≠ 0) = q.offset.filter (· ≠ 0) ∧
      (w.filtered filter).select.query sources = .ok { q.own f with
        tables := Select.tickedTables (some (textOf w.columns)) sources.tables
        joins := sources.joins
        filters := filters
        offset := offset } := by
  obtain ⟨having, hhaving, hgrouping⟩ := hw.ending.grouping _ f hf
  let ending := (w.filtered filter).ending
  have parts :=
    ending.readParts_eq sources.scope (some (textOf w.columns))
      (w.filtered filter).select.readClauses
    fun _ => rfl
  rw [hw.columns _ f hf, show ending.filter = filter from rfl, hfilter,
    show ending.having = w.ending.having from rfl, hhaving,
    show ending.limits = w.ending.limits from rfl] at parts
  have group : (w.filtered filter).select.readClauses.body? "GROUP BY" =
      w.ending.group.map fun h => textOf h.body.tokens := ending.body?_group
  have order : (w.filtered filter).select.readClauses.body? "ORDER BY" =
      w.ending.order.map fun h => textOf h.body.tokens := ending.body?_order
  have distinct : (w.filtered filter).select.distinct.isSome = (q.own f).distinct := by
    rw [Query.own, ← hw.distinct]
    cases hd : w.distinct <;> simp [select, filtered, hd]
  refine ⟨((w.ending.limits.map WrittenLimits.value).getD ⟨none, none⟩).offset,
    hw.ending.offset, ?_⟩
  have grouping := hgrouping (Select.aliasesOf (q.own f).selectedColumns)
  have ordering := hw.ending.order _ f (Select.aliasesOf (q.own f).selectedColumns) hf
  have limit : _ = (q.own f).limit := hw.ending.limit
  rw [WrittenSelect.query, show (w.filtered filter).select.columns = w.columns from rfl, parts]
  refine congrArg Except.ok ?_
  simp only [Select.assemble, group, order, distinct, Option.map_map, Function.comp_def, grouping,
    ordering, limit]
  rfl

namespace FilterNode

mutual

theorem mapTables_mapTables (g f : String → String) : (n : FilterNode) →
    (n.mapTables f).mapTables g = n.mapTables (g ∘ f)
  | .condition c => by rw [mapTables, mapTables, mapTables, Option.map_map]
  | .group operator children => by rw [mapTables, mapTables, mapTables, mapAll_mapAll g f children]

theorem mapAll_mapAll (g f : String → String) : (ns : List FilterNode) →
    mapAll g (mapAll f ns) = mapAll (g ∘ f) ns
  | [] => by rw [mapAll, mapAll, mapAll]
  | n :: ns => by rw [mapAll, mapAll, mapAll, mapTables_mapTables g f n, mapAll_mapAll g f ns]

end

end FilterNode

/-- What is read, with other ids for its own: the query with both replaced at once. -/
theorem Query.own_read {f : String → String} {tables : List TableRef} {joins : List Join}
    {offset : Option Nat} (htables : List.Forall₂ (TableRef.IsCopy f) q.tables tables)
    (hjoins : (joins.map fun j => { j with id := "" }) = (q.own f).joins)
    (hoffset : offset.filter (· ≠ 0) = q.offset.filter (· ≠ 0)) (g : String → String) :
    ({ q.own f with tables := tables, joins := joins, offset := offset } : Query).own g =
      q.own (g ∘ f) := by
  have tables_eq : (tables.map fun t => { t with id := g t.id, selectedColumns := [] }) =
      q.tables.map fun t => { t with id := (g ∘ f) t.id, selectedColumns := [] } := by
    refine (map_eq_map_of_forall₂ htables fun t u h => ?_).symm
    rw [TableRef.mk.injEq]
    exact ⟨congrArg g h.id.symm, h.name.symm, h.aliasName.symm, rfl⟩
  have joins_eq : (joins.map fun j =>
      { j with id := "", fromTableId := g j.fromTableId, toTableId := g j.toTableId }) =
        q.joins.map fun j =>
          { j with id := "", fromTableId := (g ∘ f) j.fromTableId, toTableId :=
              (g ∘ f) j.toTableId } := by
    have := congrArg (List.map fun j : Join =>
      { j with fromTableId := g j.fromTableId, toTableId := g j.toTableId }) hjoins
    simpa only [own, List.map_map, Function.comp_def] using this
  simp only [own, tables_eq, joins_eq, hoffset, List.map_map, Option.map_map, Function.comp_def,
    FilterNode.mapTables_mapTables, FilterNode.mapAll_mapAll]

theorem FilterCondition.Canonical.map_congr {tables : List TableRef} {c : FilterCondition}
    (h : c.Canonical tables) {f g : String → String} (hfg : ∀ t ∈ tables, f t.id = g t.id) :
    c.tableId.map f = c.tableId.map g := by
  rcases h.place with ⟨id, hid, ⟨t, ht, rfl⟩, -⟩ | ⟨hid, -⟩
  · rw [hid, Option.map_some, Option.map_some, hfg t ht]
  · rw [hid]
    rfl

theorem FilterNode.mapAll_congr {tables : List TableRef} {cs : List FilterCondition}
    (h : ∀ c ∈ cs, c.Canonical tables) {f g : String → String}
    (hfg : ∀ t ∈ tables, f t.id = g t.id) :
    mapAll f (cs.map .condition) = mapAll g (cs.map .condition) := by
  rw [mapAll_conditions, mapAll_conditions]
  refine congrArg _ (List.map_congr_left fun c hc => ?_)
  rw [(h c hc).map_congr hfg]

theorem FilterGroup.Canonical.mapAll_congr {tables : List TableRef} {group : FilterGroup}
    (h : group.Canonical tables) {f g : String → String} (hfg : ∀ t ∈ tables, f t.id = g t.id) :
    FilterNode.mapAll f group.children = FilterNode.mapAll g group.children := by
  cases h with
  | all some h => exact FilterNode.mapAll_congr h hfg
  | any several h =>
    rw [FilterNode.mapAll_eq_map, FilterNode.mapAll_eq_map]
    refine List.map_congr_left fun n hn => ?_
    cases h n hn with
    | condition hc => rw [FilterNode.mapTables, FilterNode.mapTables, hc.map_congr hfg]
    | group several hcs =>
      rw [FilterNode.mapTables, FilterNode.mapTables, FilterNode.mapAll_congr hcs hfg]

theorem Query.Flat.own_congr (h : q.Flat) {f g : String → String}
    (hfg : ∀ t ∈ q.tables, f t.id = g t.id) : q.own f = q.own g := by
  -- The renaming is applied to ids of tables of the query only.
  have known {id : String} (hid : Known q.tables id) : f id = g id := by
    obtain ⟨t, ht, rfl⟩ := hid
    exact hfg t ht
  have column {table : Option String} {name : String} (hc : IsColumn q.tables table name) :
      table.map f = table.map g := by
    obtain ⟨⟨id, rfl, hid⟩, -⟩ := hc
    exact congrArg some (known hid)
  have tables : (q.tables.map fun t => { t with id := f t.id, selectedColumns := [] }) =
      q.tables.map fun t => { t with id := g t.id, selectedColumns := [] } :=
    List.map_congr_left fun t ht => by rw [hfg t ht]
  have joins : (q.joins.map fun j =>
      { j with id := "", fromTableId := f j.fromTableId, toTableId := f j.toTableId }) =
          q.joins.map fun j =>
        { j with id := "", fromTableId := g j.fromTableId, toTableId := g j.toTableId } := by
    refine List.map_congr_left fun j hj => ?_
    obtain ⟨k, hk⟩ := List.getElem?_of_mem hj
    obtain ⟨source, hsource, target, htarget, hfrom, hto⟩ := h.exists_sides hk
    rw [← hfrom, ← hto, hfg source (List.mem_of_mem_take hsource),
      hfg target (List.mem_of_getElem? htarget)]
  have columns : (q.selectedColumns.map fun c => { c with tableId := f c.tableId }) =
      q.selectedColumns.map fun c => { c with tableId := g c.tableId } :=
    List.map_congr_left fun c hc => by rw [known (h.columns c hc).1]
  have filters :
      (q.filters.map fun F => (⟨F.operator, FilterNode.mapAll f F.children⟩ : FilterGroup)) =
        q.filters.map fun F => ⟨F.operator, FilterNode.mapAll g F.children⟩ :=
    Option.map_congr fun F hF => by rw [(h.filters F hF).mapAll_congr hfg]
  have groups : (q.groupBy.map fun G => (⟨G.columns.map fun c => ⟨c.tableId.map f, c.columnName⟩,
      G.having.map (FilterNode.mapTables f)⟩ : GroupClause)) = q.groupBy.map fun G =>
        ⟨G.columns.map fun c => ⟨c.tableId.map g, c.columnName⟩,
            G.having.map (FilterNode.mapTables g)⟩ := by
    refine Option.map_congr fun G hG => ?_
    obtain ⟨-, hcolumns, hhaving⟩ := h.groupBy G hG
    rw [List.map_congr_left fun c hc => by rw [column (hcolumns c hc)],
      Option.map_congr fun n hn => ?_]
    obtain ⟨F, rfl, hF⟩ := hhaving n hn
    rw [FilterGroup.toNode, FilterNode.mapTables, FilterNode.mapTables, hF.mapAll_congr hfg]
  have orders : (q.orderBy.map fun os => os.map fun o => { o with tableId := o.tableId.map f }) =
      q.orderBy.map fun os => os.map fun o => { o with tableId := o.tableId.map g } :=
    Option.map_congr fun os hos => List.map_congr_left fun o ho => by
      rw [column ((h.orderBy os hos).2 o ho)]
  simp only [own, tables, joins, columns, filters, groups, orders]

/-- Other ids for the tables are all that can change the filter. -/
def FilterGroup.NamesOnly (tables : List TableRef) (F : FilterGroup) : Prop :=
  ∀ f g : String → String, (∀ t ∈ tables, f t.id = g t.id) →
    FilterNode.mapAll f F.children = FilterNode.mapAll g F.children

theorem Query.Flat.own_congr_filtered (h : q.Flat) {filters : Option FilterGroup}
    (hfilters : ∀ F ∈ filters, F.NamesOnly q.tables) {f g : String → String}
    (hfg : ∀ t ∈ q.tables, f t.id = g t.id) :
    ({ q with filters := filters } : Query).own f =
      ({ q with filters := filters } : Query).own g := by
  have children :
      (filters.map fun F => (⟨F.operator, FilterNode.mapAll f F.children⟩ : FilterGroup)) =
        filters.map fun F => ⟨F.operator, FilterNode.mapAll g F.children⟩ :=
    Option.map_congr fun F hF => by rw [hfilters F hF f g hfg]
  have parts (f : String → String) : ({ q with filters := filters } : Query).own f =
      { q.own f with
        filters := filters.map fun F => ⟨F.operator, FilterNode.mapAll f F.children⟩ } :=
    rfl
  rw [parts, parts, h.own_congr hfg, children]

theorem position_eq (tables : List TableRef) (id : String) :
    position tables id = toString ((tables.map (·.id)).idxOf id) := by
  rw [position, List.idxOf, List.findIdx_map]
  rfl

theorem position_getElem {tables : List TableRef} (h : (tables.map (·.id)).Nodup) {k : Nat}
    (hk : k < tables.length) : position tables tables[k].id = toString k := by
  have := h.idxOf_getElem k (by simpa using hk)
  rw [List.getElem_map] at this
  rw [position_eq, this]

theorem position_copy {f : String → String} {ts us : List TableRef}
    (h : List.Forall₂ (TableRef.IsCopy f) ts us) (hts : (ts.map (·.id)).Nodup)
    (hus : (us.map (·.id)).Nodup) :
    ∀ t ∈ ts, position us (f t.id) = position ts t.id := by
  intro t ht
  obtain ⟨k, hk, rfl⟩ := List.getElem_of_mem ht
  have hk' : k < us.length := h.length_eq ▸ hk
  have copy := (h.get hk hk').id
  rw [List.get_eq_getElem, List.get_eq_getElem] at copy
  rw [← copy, position_getElem hus, position_getElem hts]

/-- From every state of a source that gives no id twice, and none in use, the text is read as the
query. -/
def WrittenSelect.ReadsAs (s : WrittenSelect) (q : Query) : Prop :=
  ∀ (σ : Type) (ids : IdSource σ) (used : List String) (st : σ), ids.Fresh used st → "" ∈ used →
    ∃ own st', (Select.read ids s.text).run st = (.ok own, st') ∧ ids.Fresh used st' ∧
      own.own (position own.tables) = q.own (position q.tables)

/-- With another filter in it the text is read as the query with what is read of the filter, as long
as the filter names tables of the query only. -/
theorem Draft.States.readsAs_filtered (hw : w.States q d anchor) (h : q.Flat)
    (hanchor : q.tables.head? = some anchor) {filter : Option (Headed ["WHERE"] WrittenFilter)}
    {filters : Option FilterGroup} (hfilter : ∀ scope f, Scope.Knows scope q.tables f →
      (filter.elim (.ok none) fun h => (h.body.readWith scope).map some) =
        .ok (filters.map fun F => ⟨F.operator, FilterNode.mapAll f F.children⟩))
    (hfilters : ∀ F ∈ filters, F.NamesOnly q.tables) :
    (w.filtered filter).select.ReadsAs { q with filters := filters } := by
  intro σ ids used st hfresh hempty
  obtain ⟨names, st', hnames⟩ : ∃ names st', ids.nextAll w.select.stems st = (names, st') :=
    ⟨_, _, rfl⟩
  have places : w.select.Places (w.select.sources names) :=
    w.select.places_sources (by rw [← ids.length_nextAll w.select.stems st, hnames])
  have apart : ReferencesApart (w.select.sources names).tables :=
    (referencesApart_iff_of_held places.held).mpr
      ((referencesApart_iff_of_held (hw.held h hanchor)).mp h.apart)
  obtain ⟨f, copies⟩ := exists_copies (hw.held h hanchor) places.held h.ids
  have knows : Scope.Knows (w.select.sources names).scope q.tables f :=
    knows_of_copies copies apart places.ordered.named _
  obtain ⟨offset, hoffset, hquery⟩ := hw.exists_query knows (hfilter _ f knows)
  have hread := (w.filtered filter).select.read_eq ids st
  -- A filter brings no tables and no ids.
  have stems : (w.filtered filter).select.stems = w.select.stems := rfl
  have sources : (w.filtered filter).select.sources names = w.select.sources names := rfl
  simp only [stems, hnames, sources, hquery] at hread
  have fresh := Select.fresh_read hfresh hread
  have ticked :=
    Select.map_id_tickedTables (some (textOf w.columns)) (w.select.sources names).tables
  have nodup := fresh.nodup
  rw [ticked, List.nodup_append] at nodup
  obtain ⟨-, hids, hdisjoint⟩ := nodup
  have joins := hw.joins_eq h places copies apart hids fun hmem => hdisjoint "" hempty "" hmem rfl
  have copies : List.Forall₂ (TableRef.IsCopy f) q.tables
      (Select.tickedTables (some (textOf w.columns)) (w.select.sources names).tables) := by
    rw [Select.tickedTables]
    split
    · exact List.forall₂_map_right_iff.mpr (copies.imp fun t u h => ⟨h.id, h.name, h.aliasName⟩)
    · exact copies
  refine ⟨_, st', hread, fresh.sublist (List.sublist_append_left _ _), ?_⟩
  refine (Query.own_read (q := { q with filters := filters }) copies joins hoffset _).trans ?_
  exact h.own_congr_filtered hfilters (position_copy copies h.ids (ticked.symm ▸ hids))

theorem Draft.States.readsAs (hw : w.States q d anchor) (h : q.Flat)
    (hanchor : q.tables.head? = some anchor) : w.select.ReadsAs q := by
  exact hw.readsAs_filtered h hanchor hw.ending.filters fun F hF _ _ hfg =>
    (h.filters F hF).mapAll_congr hfg

end SqlCanvas
