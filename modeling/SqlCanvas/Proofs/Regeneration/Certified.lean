import SqlCanvas.Proofs.Regeneration.Rewritten

/-!
# Texts that are certified lossless

A single `SELECT` over joined tables with conjunctions for its filters. Other than a canonical query
it may carry what is never written: groups and lists that are empty, the value of a null test, a
second value. Its text is that of the query without them, so a round trip finds nothing wrong with
it and gives it back as it was. All that is asked of the reader of SQL that compares the texts is
that it accepts the one text there is.
-/

namespace SqlCanvas

open Text

/-- A null test, whatever its values, or a comparison or `LIKE` with a value that can be read
back. -/
structure FilterCondition.Writable (tables : List TableRef) (c : FilterCondition) : Prop where
  place : (∃ id, c.tableId = some id ∧ Known tables id ∧ IsIdentifier c.column) ∨
    (c.tableId = none ∧ IsCall c.column)
  fits : c.operator.shape = .bare ∨ ∃ v, c.value = .scalar v ∧ c.operator.Accepts v

/-- A conjunction, which may be empty. -/
inductive FilterGroup.Conjunctive (tables : List TableRef) : FilterGroup → Prop
  | mk (cs : List FilterCondition) (h : ∀ c ∈ cs, c.Writable tables) :
    Conjunctive tables ⟨.and, cs.map .condition⟩

def FilterCondition.trimmed (c : FilterCondition) : FilterCondition :=
  { c with
    value := if c.operator.shape = .bare then .null else c.value
    value2 := .null }

def FilterNode.trimmed : FilterNode → FilterNode
  | .condition c => .condition c.trimmed
  | n => n

/-- Nothing is left of an empty group. -/
def FilterGroup.trimmed? (g : FilterGroup) : Option FilterGroup :=
  if g.children.isEmpty then none else some ⟨g.operator, g.children.map .trimmed⟩

def FilterNode.trimmed? : FilterNode → Option FilterNode
  | .condition c => some (.condition c.trimmed)
  | .group operator children => (FilterGroup.trimmed? ⟨operator, children⟩).map (·.toNode)

def GroupClause.trimmed (g : GroupClause) : GroupClause :=
  { g with having := g.having.bind (·.trimmed?) }

namespace Query

/-- The tables, joins, columns and limits of a query, without its other clauses. -/
def frame (q : Query) : Query :=
  { q with filters := none, groupBy := none, orderBy := none, ctes := none, unions := none }

def trimmed (q : Query) : Query :=
  { q with
    filters := q.filters.bind (·.trimmed?)
    groupBy := q.groupBy.map (·.trimmed)
    orderBy := q.orderBy.filter (!·.isEmpty)
    ctes := none
    unions := none }

/-- A single `SELECT` over tables that are joined in order, with conjunctions for its filters. There
may be empty lists of common tables and operands. -/
structure Certifiable (q : Query) : Prop where
  frame : q.frame.Flat
  filters : ∀ g ∈ q.filters, g.Conjunctive q.tables
  groupBy : ∀ g ∈ q.groupBy, g.columns ≠ [] ∧
    ∀ c ∈ g.columns, IsColumn q.tables c.tableId c.columnName
  having : ∀ g ∈ q.groupBy, ∀ n ∈ g.having, ∃ f : FilterGroup, n = f.toNode ∧ f.Conjunctive q.tables
  orderBy : ∀ os ∈ q.orderBy, ∀ o ∈ os, IsColumn q.tables o.tableId o.columnName
  ctes : ∀ cs ∈ q.ctes, cs = []
  unions : ∀ us ∈ q.unions, us = []

end Query

section Filters

variable {tables : List TableRef}

theorem FilterCondition.Writable.canonical_trimmed {c : FilterCondition} (h : c.Writable tables) :
    c.trimmed.Canonical tables := by
  refine ⟨h.place, ?_, rfl⟩
  obtain ⟨table, column, operator, value, value2⟩ := c
  rcases h.fits with hbare | ⟨v, hv, accepts⟩
  · cases operator <;> cases hbare
    · exact ⟨_, rfl, .isNull⟩
    · exact ⟨_, rfl, .isNotNull⟩
  · cases accepts with
    | compare c h => exact ⟨v, hv, .compare c h⟩
    | like h => exact ⟨v, hv, .like h⟩
    | notLike h => exact ⟨v, hv, .notLike h⟩
    | isNull => exact ⟨_, rfl, .isNull⟩
    | isNotNull => exact ⟨_, rfl, .isNotNull⟩

theorem FilterCondition.Writable.sql?_trimmed {c : FilterCondition} (h : c.Writable tables) :
    c.trimmed.sql? tables = c.sql? tables := by
  obtain ⟨table, column, operator, value, value2⟩ := c
  rcases h.fits with hbare | ⟨v, -, accepts⟩
  · cases operator <;> cases hbare <;> rfl
  · cases accepts <;> rfl

theorem FilterCondition.Writable.isWritable {c : FilterCondition} (h : c.Writable tables) :
    ∀ n ∈ c.numerals tables, Numeral.IsWritable n := by
  rw [numerals]
  split
  · rcases h.fits with hbare | ⟨v, hv, accepts⟩
    · rw [hbare]
      exact List.forall_mem_nil _
    · rw [hv]
      exact accepts.isWritable _
  · exact List.forall_mem_nil _

theorem FilterNode.map_trimmed (cs : List FilterCondition) :
    (cs.map FilterNode.condition).map trimmed = (cs.map (·.trimmed)).map FilterNode.condition := by
  rw [List.map_map, List.map_map]
  rfl

theorem FilterNode.partsSql_trimmed {cs : List FilterCondition} (h : ∀ c ∈ cs, c.Writable tables) :
    partsSql tables ((cs.map (·.trimmed)).map .condition) =
      partsSql tables (cs.map .condition) := by
  induction cs with
  | nil => rfl
  | cons c cs ih =>
    obtain ⟨hc, hcs⟩ := List.forall_mem_cons.mp h
    rw [List.map_cons, List.map_cons, List.map_cons, partsSql, partsSql, ih hcs, hc.sql?_trimmed]

namespace FilterGroup.Conjunctive

variable {g : FilterGroup}

theorem isWritable (h : g.Conjunctive tables) :
    ∀ c ∈ g.toNode.conditions, ∀ n ∈ c.numerals tables, Numeral.IsWritable n := by
  obtain ⟨cs, h⟩ := h
  rw [FilterGroup.toNode, FilterNode.conditions, Filter.conditionsAll_map]
  exact fun c hc => (h c hc).isWritable

theorem canonical_trimmed (h : g.Conjunctive tables) : ∀ f ∈ g.trimmed?, f.Canonical tables := by
  obtain ⟨cs, h⟩ := h
  rw [trimmed?]
  split
  · exact nofun
  · rename_i hcs
    rintro _ ⟨⟩
    rw [FilterNode.map_trimmed]
    refine .all (by simpa using hcs) (List.forall_mem_map.mpr fun c hc =>
      (h c hc).canonical_trimmed)

theorem sql?_trimmed (h : g.Conjunctive tables) :
    g.trimmed?.bind (·.sql? tables) = g.sql? tables := by
  obtain ⟨cs, h⟩ := h
  rw [trimmed?]
  split
  · rename_i hcs
    obtain rfl : cs = [] := by simpa using hcs
    rw [List.map_nil, sql?, toNode, FilterNode.sql?, FilterNode.partsSql]
    rfl
  · rw [FilterNode.map_trimmed, Option.bind_some, sql?, sql?, toNode, toNode, FilterNode.sql?,
      FilterNode.sql?, FilterNode.partsSql_trimmed h]

end FilterGroup.Conjunctive

end Filters

namespace Query.Certifiable

variable {q : Query}

theorem whereLine_trimmed (h : q.Certifiable) : q.trimmed.whereLine = q.whereLine := by
  rw [whereLine, whereLine, trimmed]
  cases hf : q.filters with
  | none => rfl
  | some g =>
    simp only [Option.bind_some]
    rw [(h.filters g hf).sql?_trimmed]

theorem groupLines_trimmed (h : q.Certifiable) : q.trimmed.groupLines = q.groupLines := by
  rw [groupLines, groupLines, trimmed]
  cases hg : q.groupBy with
  | none => rfl
  | some g =>
    have having : g.trimmed.havingSql? q.tables = g.havingSql? q.tables := by
      rw [GroupClause.havingSql?, GroupClause.havingSql?, GroupClause.trimmed]
      cases hn : g.having with
      | none => rfl
      | some n =>
        obtain ⟨f, rfl, hf⟩ := h.having g hg n hn
        rw [Option.bind_some, Option.bind_some, FilterGroup.toNode, FilterNode.trimmed?,
          Option.bind_map]
        exact hf.sql?_trimmed
    simp only [Option.map_some, GroupClause.lines, having]
    rfl

theorem orderLine_trimmed (q : Query) : q.trimmed.orderLine = q.orderLine := by
  rw [orderLine, orderLine, trimmed]
  rcases q.orderBy with _ | _ | _ <;> rfl

theorem flat_trimmed (h : q.Certifiable) : q.trimmed.Flat where
  tables := h.frame.tables
  ids := h.frame.ids
  names := h.frame.names
  apart := h.frame.apart
  targets := h.frame.targets
  sources := h.frame.sources
  conditions := h.frame.conditions
  columns := h.frame.columns
  distinct := h.frame.distinct
  filters := by
    intro f hf
    obtain ⟨g, hg, hf⟩ := Option.bind_eq_some_iff.mp hf
    exact (h.filters g hg).canonical_trimmed f hf
  groupBy := by
    intro g' hg'
    obtain ⟨g, hg, rfl⟩ := Option.map_eq_some_iff.mp hg'
    obtain ⟨any, columns⟩ := h.groupBy g hg
    refine ⟨.inl any, columns, fun n' hn' => ?_⟩
    obtain ⟨n, hn, hn'⟩ := Option.bind_eq_some_iff.mp hn'
    obtain ⟨f, rfl, hf⟩ := h.having g hg n hn
    obtain ⟨f', hf', rfl⟩ := Option.map_eq_some_iff.mp hn'
    exact ⟨f', rfl, hf.canonical_trimmed f' hf'⟩
  orderBy := by
    intro os hos
    obtain ⟨hos, hsome⟩ := Option.filter_eq_some_iff.mp hos
    exact ⟨by simpa using hsome, h.orderBy os hos⟩
  limit := h.frame.limit
  offset := h.frame.offset

theorem isWritable (h : q.Certifiable) (d : Dialect) :
    ∀ n ∈ q.numerals d, Numeral.IsWritable n := by
  refine q.isWritable_of_mem_numerals (fun clause => ?_)
    ⟨h.frame.limit, fun n hn => (h.frame.offset n hn).1⟩ d
  cases clause with
  | «where» =>
    rw [Query.conditions]
    cases hf : q.filters with
    | none => exact List.forall_mem_nil _
    | some g => exact (h.filters g hf).isWritable
  | having =>
    rw [Query.conditions]
    cases hg : q.groupBy with
    | none => exact List.forall_mem_nil _
    | some g =>
      rw [Option.bind_some]
      cases hn : g.having with
      | none => exact List.forall_mem_nil _
      | some n =>
        obtain ⟨f, rfl, hf⟩ := h.having g hg n hn
        exact hf.isWritable

theorem sql_trimmed (h : q.Certifiable) (d : Dialect) : q.trimmed.sql d = q.sql d := by
  have lines (anchor : TableRef) : q.trimmed.ownLines d anchor = q.ownLines d anchor := by
    rw [ownLines, ownLines, h.whereLine_trimmed, h.groupLines_trimmed, orderLine_trimmed]
    rfl
  -- An empty list of common tables or operands has no line, like none at all.
  have tables : optionalTables d q.ctes = .ok [] := by
    cases hc : q.ctes with
    | none => rfl
    | some cs => rw [h.ctes cs hc]; rfl
  have branches : optionalBranches d q.unions = .ok [] := by
    cases hu : q.unions with
    | none => rfl
    | some us => rw [h.unions us hu]; rfl
  obtain ⟨anchor, others, htables⟩ : ∃ anchor others, q.tables = anchor :: others :=
    List.exists_cons_of_ne_nil h.frame.tables
  rw [sql_of_writable htables (h.isWritable d), tables, branches,
    sql_of_writable (q := q.trimmed) htables (h.flat_trimmed.isWritable d), lines]
  rfl

theorem canonical_trimmed (h : q.Certifiable) : q.trimmed.Canonical :=
  .of_held ⟨h.flat_trimmed, nofun, nofun⟩ nofun fun r hr => by
    cases hr with
    | commonTable h => cases h
    | branch h => cases h

theorem findings_trimmed (h : q.Certifiable) : q.trimmed.findings = [] := by
  have own : q.trimmed.ownFindings = [] := by
    rw [h.flat_trimmed.ownFindings_eq_groupFindings, groupFindings, trimmed]
    cases hg : q.groupBy with
    | none => rfl
    | some g => exact if_neg fun hempty => (h.groupBy g hg).1 (List.isEmpty_iff.mp hempty)
  rw [findings_eq, own]
  rfl

end Query.Certifiable

namespace Equivalence

variable {T : Type}

/-- Texts compared through a reader of SQL, which makes of a text a tree and a text in normal form.
Where the normal forms differ, by more than the case of letters, the trees say how. -/
def differencesBy (canonical? : Text → Option (T × Text)) (differing : T → T → List Difference)
    (sql₁ sql₂ : Text) : List Difference :=
  match canonical? sql₁, canonical? sql₂ with
  | some (tree₁, text₁), some (tree₂, text₂) =>
    if lower text₁ = lower text₂ then []
    else
      match differing tree₁ tree₂ with
      | [] => [.other]
      | ds => ds
  | _, _ => [.unreadable]

theorem differencesBy_self {canonical? : Text → Option (T × Text)} (differing : T → T →
      List Difference)
    {sql : Text} (h : (canonical? sql).isSome) :
    differencesBy canonical? differing sql sql = [] := by
  obtain ⟨⟨tree, text⟩, h⟩ := Option.isSome_iff_exists.mp h
  simp only [differencesBy, h, if_true]

theorem differences_self {d : Dialect} {sql : Text} (h : (readable? d sql).isSome) :
    differences d sql sql = [] := by
  obtain ⟨tokens, h⟩ := Option.isSome_iff_exists.mp h
  simp only [differences, h]
  exact (selectionDifferences_eq_nil_iff _ _).mpr (Selection.same_self _)

end Equivalence

/-- What is written for a query is certified lossless and written again as it is, by a round trip
with any source of ids and any reader of SQL that accepts the text. -/
theorem Query.Certifiable.lossless {q : Query} (h : q.Certifiable) (d : Dialect) :
    ∃ sql, q.sql d = .ok sql ∧
      (∀ {σ T : Type} (ids : IdSource σ) (s : σ) (canonical? : Text → Option (T × Text))
        (differing : T → T → List Equivalence.Difference), ids.Fresh [""] s →
        (canonical? sql.toList).isSome →
          roundTrip ids s (Equivalence.differencesBy canonical? differing) sql d =
            .ok { lossless := true, regenerated := some sql, differences := [], remarks := [] }) ∧
      ((Equivalence.readable? d sql.toList).isSome → checkRoundTrip sql d =
        .ok { lossless := true, regenerated := some sql, differences := [], remarks := [] }) := by
  obtain ⟨sql, hsql, trip⟩ := h.canonical_trimmed.roundTrip_sql d
  have valid : q.trimmed.isValid = true := by
    rw [isValid, h.findings_trimmed]
    rfl
  rw [valid, h.findings_trimmed, List.map_nil] at trip
  refine ⟨sql, h.sql_trimmed d ▸ hsql, ?_, fun hreadable => ?_⟩
  · exact fun ids s _ differing hfresh haccepts =>
      trip ids s _ hfresh (Equivalence.differencesBy_self differing haccepts)
  · rw [checkRoundTrip_eq]
    exact trip .shared 1 _ (IdSource.fresh_shared_empty 1) (Equivalence.differences_self hreadable)

/-- What customers have ordered in all. An empty list of criteria and the value of a null test are
not written. -/
def Query.totals : Query :=
  { empty with
    tables := [⟨"1", "customers", some "c", []⟩, ⟨"2", "orders", some "o", []⟩]
    joins := [⟨"3", "1", "2", .left, [⟨"id", "customer", .eq⟩]⟩]
    selectedColumns :=
      [⟨"1", "name", none, none, none⟩, ⟨"2", "total", some "ordered", some .sum, none⟩]
    filters := some ⟨.and, [
      .condition ⟨some "1", "name", .like, .string "it's%", .null⟩,
      .condition ⟨some "2", "paid", .isNotNull, .string "ignored", .null⟩]⟩
    groupBy := some ⟨[⟨some "1", "name"⟩], some (.group .and [])⟩
    orderBy := some []
    limit := some 10
    offset := some 20 }

theorem Query.flat_totals : totals.frame.Flat where
  tables := List.cons_ne_nil _ _
  ids := by decide
  names := List.forall_mem_cons.mpr ⟨TableRef.nameable_of_plain (by decide) (by decide),
    List.forall_mem_singleton.mpr (TableRef.nameable_of_plain (by decide) (by decide))⟩
  apart := (namesApart_iff.mpr (by decide +kernel)).referencesApart
  targets := rfl
  sources := by
    rintro (_ | k) j ⟨⟩
    exact ⟨_, List.mem_cons_self, rfl⟩
  conditions := List.forall_mem_singleton.mpr ⟨List.cons_ne_nil _ _, List.forall_mem_singleton.mpr
    ⟨(by decide : IsPlain "id").isIdentifier, (by decide : IsPlain "customer").isIdentifier⟩⟩
  columns := by
    refine List.forall_mem_cons.mpr
      ⟨⟨⟨_, List.mem_cons_self, rfl⟩, (by decide : IsPlain "name").isIdentifier,
      nofun, rfl⟩,
      List.forall_mem_singleton.mpr ⟨⟨_, List.mem_cons_of_mem _ (List.mem_singleton_self _), rfl⟩,
        (by decide : IsPlain "total").isIdentifier, ?_, rfl⟩⟩
    rintro _ ⟨⟩
    exact (by decide : IsPlain "ordered").isIdentifier
  distinct := nofun
  filters := nofun
  groupBy := nofun
  orderBy := nofun
  limit := by
    rintro _ ⟨⟩
    rw [IsReadable]
    decide
  offset := by
    rintro _ ⟨⟩
    rw [IsReadable]
    decide

theorem Query.certifiable_totals : totals.Certifiable where
  frame := flat_totals
  filters := by
    rintro _ ⟨⟩
    refine .mk [_,
      _] (List.forall_mem_cons.mpr ⟨⟨.inl ⟨_, rfl, ?_, ?_⟩, .inr ⟨_, rfl, .like (.string _)⟩⟩,
      List.forall_mem_singleton.mpr ⟨.inl ⟨_, rfl, ?_, ?_⟩, .inl rfl⟩⟩)
    · exact ⟨_, List.mem_cons_self, rfl⟩
    · exact (by decide : IsPlain "name").isIdentifier
    · exact ⟨_, List.mem_cons_of_mem _ (List.mem_singleton_self _), rfl⟩
    · exact (by decide : IsPlain "paid").isIdentifier
  groupBy := by
    rintro _ ⟨⟩
    exact ⟨List.cons_ne_nil _ _, List.forall_mem_singleton.mpr
      ⟨⟨_, rfl, _, List.mem_cons_self, rfl⟩, (by decide : IsPlain "name").isIdentifier⟩⟩
  having := by
    rintro _ ⟨⟩ _ ⟨⟩
    exact ⟨⟨.and, []⟩, rfl, .mk [] (List.forall_mem_nil _)⟩
  orderBy := by
    rintro _ ⟨⟩
    exact List.forall_mem_nil _
  ctes := nofun
  unions := nofun

theorem Query.sql_totals : totals.sql .mysql = .ok ("\n".intercalate [
    "SELECT c.name, SUM(o.total) AS ordered",
    "FROM customers AS c",
    "LEFT JOIN orders AS o ON c.id = o.customer",
    "WHERE c.name LIKE 'it''s%' AND o.paid IS NOT NULL",
    "GROUP BY c.name",
    "LIMIT 10 OFFSET 20"]) := by
  have filter : totals.whereLine = ["WHERE c.name LIKE 'it''s%' AND o.paid IS NOT NULL"] := by
    simp only [whereLine, totals, Option.bind_some, FilterGroup.sql?, FilterGroup.toNode,
      FilterNode.sql?, FilterNode.partsSql]
    rfl
  have group : totals.groupLines = ["GROUP BY c.name"] := by
    simp only [groupLines, totals, GroupClause.lines, GroupClause.havingSql?, Option.bind_some,
      FilterNode.sql?, FilterNode.partsSql]
    rfl
  rw [sql_of_writable rfl (certifiable_totals.isWritable .mysql)]
  simp only [ownLines, filter, group]
  refine congrArg Except.ok (?_ : _ = _)
  decide +kernel

theorem Query.lossless_totals :
    ∃ sql, totals.sql .mysql = .ok sql ∧
      roundTrip .sequential (.fresh 1) (Equivalence.differencesBy
        (fun t => (Equivalence.readable? .mysql t).map fun tokens =>
          (Equivalence.Selection.of tokens, tokens.flatten)) Equivalence.namedDifferences) sql
            .mysql =
          .ok { lossless := true, regenerated := some sql, differences := [], remarks := [] } ∧
      checkRoundTrip sql .mysql =
        .ok { lossless := true, regenerated := some sql, differences := [], remarks := [] } := by
  obtain ⟨sql, hsql, byReader, checked⟩ := certifiable_totals.lossless .mysql
  have readable : (Equivalence.readable? .mysql sql.toList).isSome := by
    obtain rfl := Except.ok.inj (sql_totals.symm.trans hsql)
    decide +kernel
  refine ⟨sql, hsql, byReader _ _ _ _ (IdSource.fresh_sequential_empty _) ?_, checked readable⟩
  rwa [Option.isSome_map]

end SqlCanvas
