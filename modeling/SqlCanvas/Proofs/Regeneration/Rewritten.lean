import SqlCanvas.Proofs.Regeneration.Nested
import SqlCanvas.Proofs.Renaming.Lockstep
import SqlCanvas.Proofs.RoundTrip

/-!
# Texts that are written again

A query and the query with the places of its tables for their ids have the same text, and the same
findings where these name no id. What is read from the text of a canonical query differs from it in
nothing but what is lost there, so it is written in the same way: a round trip gives back the text
that it was given, and finds what is wrong with the query that the text was written for.
-/

namespace SqlCanvas

open Text

theorem toString_injective : Function.Injective (toString : Nat → String) :=
  fun _ _ h => Numeral.ofNat_injective (String.ofList_injective h)

theorem keeps_position (tables : List TableRef) (id : String) :
    Keeps (position tables) tables id := by
  intro t ht heq
  rw [position_eq, position_eq] at heq
  exact (List.idxOf_inj (List.mem_map_of_mem ht)).mp (toString_injective heq)

theorem Query.keptBy_position (q : Query) : q.KeptBy (position q.tables) where
  tables _ _ := keeps_position _ _
  joins _ _ := ⟨keeps_position _ _, keeps_position _ _⟩
  columns _ _ := keeps_position _ _
  conditions _ _ _ _ _ := keeps_position _ _
  groups _ _ _ _ _ _ := keeps_position _ _
  order _ _ _ _ _ _ := keeps_position _ _

/-- The table under another id, without the columns ticked in an editor. -/
def TableRef.placed (f : String → String) (t : TableRef) : TableRef :=
  { t with id := f t.id, selectedColumns := [] }

theorem relabels_placed (f : String → String) : Relabels f (·.placed f) :=
  ⟨fun _ => rfl, fun _ => rfl, fun _ => rfl⟩

theorem Dialect.pagination_offset (d : Dialect) (limit : Int) (offset : Option Nat) :
    d.pagination limit ((offset.filter (· ≠ 0)).map Int.ofNat) =
      d.pagination limit (offset.map Int.ofNat) := by
  cases offset with
  | none => rfl
  | some n =>
    cases n with
    | zero => cases d <;> rfl
    | succ n => rfl

theorem Dialect.numerals_offset (d : Dialect) (limit : Int) (offset : Option Nat) :
    d.numerals limit ((offset.filter (· ≠ 0)).map Int.ofNat) =
      d.numerals limit (offset.map Int.ofNat) := by
  cases offset with
  | none => rfl
  | some n =>
    cases n with
    | zero => cases d <;> rfl
    | succ n => rfl

namespace Query

variable {f : String → String} {q : Query} {d : Dialect}

theorem numerals_own (h : q.KeptBy f) (d : Dialect) : (q.own f).numerals d = q.numerals d := by
  have limit : (q.own f).limitNumerals d = q.limitNumerals d := by
    rw [limitNumerals, limitNumerals, own]
    cases q.limit with
    | none => rfl
    | some n => exact d.numerals_offset n q.offset
  have conditions : (q.own f).conditionNumerals = q.conditionNumerals :=
    conditionNumerals_recast (g := fun _ => "") (relabels_placed f) h
  rw [numerals_eq, numerals_eq, limit, conditions]

theorem ownLines_own (h : q.KeptBy f) (anchor : TableRef) :
    (q.own f).ownLines d (anchor.placed f) = q.ownLines d anchor := by
  have limit : (q.own f).limitLine d = q.limitLine d := by
    rw [limitLine, limitLine, own]
    cases q.limit with
    | none => rfl
    | some n => exact congrArg (fun line => [line]) (d.pagination_offset n q.offset)
  have others := ownLines_recast (g := fun _ => "") (relabels_placed f) h d anchor
  rw [ownLines] at others ⊢
  rw [limit]
  exact others

theorem ownFindings_own (h : q.KeptBy f) :
    (q.own f).ownFindings = q.ownFindings.map (·.renamed f) :=
  ownFindings_recast (g := fun _ => "") (relabels_placed f) h

theorem withoutIdsTables_eq_map (ctes : Option (List (CommonTable Query))) : withoutIdsTables ctes =
    ctes.map fun cs => cs.map fun c => { c with query := c.query.withoutIds } := by
  cases ctes with
  | none => rw [withoutIdsTables, Option.map_none]
  | some cs => rw [withoutIdsTables, withoutIdsEach_eq_map, Option.map_some]

theorem withoutIdsBranches_eq_map (unions : Option (List (SetBranch Query))) :
    withoutIdsBranches unions =
    unions.map fun us => us.map fun u => { u with query := u.query.withoutIds } := by
  cases unions with
  | none => rw [withoutIdsBranches, Option.map_none]
  | some us => rw [withoutIdsBranches, withoutIdsAll_eq_map, Option.map_some]

theorem sql_withoutIds (q : Query) (d : Dialect) : q.withoutIds.sql d = q.sql d := by
  induction q using nestedInduction with
  | step q ih =>
    have lines (anchor : TableRef) :
        q.withoutIds.ownLines d (anchor.placed (position q.tables)) = q.ownLines d anchor := by
      rw [withoutIds_eq, ownLines_holding]
      exact ownLines_own q.keptBy_position anchor
    have numerals : q.withoutIds.numerals d = q.numerals d := by
      rw [withoutIds_eq, numerals_holding]
      exact numerals_own q.keptBy_position d
    refine sql_eq_of_parts (·.placed (position q.tables)) withoutIds ?_ lines numerals ?_ ?_ ih
    · rw [withoutIds_eq]
      rfl
    · rw [withoutIds_eq, withoutIdsTables_eq_map]
    · rw [withoutIds_eq, withoutIdsBranches_eq_map]

/-- No finding of the query by itself or of a query inside names an id. -/
def NamesNoId (q : Query) : Prop :=
  ∀ r, q.Reaches r → ∀ x ∈ r.ownFindings, ∀ f, x.renamed f = x

theorem findings_withoutIds {q : Query} (h : q.NamesNoId) : q.withoutIds.findings = q.findings := by
  suffices q.withoutIds.findings = q.findings.map id by rwa [List.map_id] at this
  -- Every query inside has places of its own, so there is no one renaming for the findings of all
  -- of them.
  induction q using nestedInduction with
  | step q ih =>
    have own : q.withoutIds.ownFindings = q.ownFindings.map id := by
      rw [withoutIds_eq, ownFindings_holding, ownFindings_own q.keptBy_position]
      exact List.map_congr_left fun x hx => h q .refl x hx _
    refine findings_eq_of_parts withoutIds (fun _ _ => rfl) own ?_ ?_ fun s held => ?_
    · rw [withoutIds_eq, withoutIdsTables_eq_map]
    · rw [withoutIds_eq, withoutIdsBranches_eq_map]
    · exact ih s held fun r hr => h r (.head held hr)

theorem sql_of_withoutIds {r : Query} (h : r.withoutIds = q.withoutIds) (d : Dialect) :
    r.sql d = q.sql d := by
  rw [← r.sql_withoutIds, h, q.sql_withoutIds]

theorem findings_of_withoutIds {r : Query} (h : r.withoutIds = q.withoutIds) (hr : r.NamesNoId)
    (hq : q.NamesNoId) : r.findings = q.findings := by
  rw [← findings_withoutIds hr, h, findings_withoutIds hq]

end Query

theorem Known.isKnownTable {tables : List TableRef} {id : String} (h : Known tables id) :
    isKnownTable tables id = true :=
  isKnownTable_iff.mpr h

theorem FilterOperator.Accepts.not_range {o : FilterOperator} {v : Scalar} (h : o.Accepts v) :
    o ≠ .between ∧ o ≠ .notBetween := by
  cases h <;> exact ⟨nofun, nofun⟩

theorem FilterCondition.Canonical.findings_eq_nil {tables : List TableRef} {c : FilterCondition}
    (h : c.Canonical tables) (clause : FilterClause) : c.findings tables clause = [] := by
  have range : c.isOpenRange = false := by
    obtain ⟨v, -, hv⟩ := h.fits
    obtain ⟨hbetween, hnot⟩ := hv.not_range
    rw [isOpenRange, decide_eq_false hbetween, decide_eq_false hnot]
    rfl
  have known : c.tableId.filter (!isKnownTable tables ·) = none := by
    rcases h.place with ⟨id, hid, hknown, -⟩ | ⟨hid, -⟩
    · rw [hid, Option.filter_some, hknown.isKnownTable]
      rfl
    · rw [hid, Option.filter_none]
  rw [findings, known, range]
  rfl

namespace Query

variable {q : Query}

theorem Flat.known_target (h : q.Flat) {j : Join} (hj : j ∈ q.joins) :
    Known q.tables j.toTableId := by
  have mem : j.toTableId ∈ q.tables.tail.map (·.id) := by
    rw [← h.targets]
    exact List.mem_map_of_mem hj
  obtain ⟨t, ht, hid⟩ := List.mem_map.mp mem
  exact ⟨t, List.mem_of_mem_tail ht, hid⟩

theorem Flat.known_source (h : q.Flat) {k : Nat} {j : Join} (hj : q.joins[k]? = some j) :
    Known q.tables j.fromTableId := by
  obtain ⟨t, ht, hid⟩ := h.sources k j hj
  exact ⟨t, List.mem_of_mem_take ht, hid⟩

/-- All that can be wrong with a canonical query by itself is that it groups by nothing. -/
theorem Flat.ownFindings_eq_groupFindings (h : q.Flat) : q.ownFindings = q.groupFindings := by
  have tables : (if q.tables.isEmpty then [Finding.noTables] else []) = [] := by
    rw [if_neg (by simpa using h.tables)]
  have repeated : repeatedIds [] q.tables = [] := repeatedIds_eq_nil (by simpa using h.ids)
  have joins : (q.joins.mapIdx fun i j => j.findings q.tables (i + 1)).flatten = [] := by
    refine List.eq_nil_iff_forall_not_mem.mpr fun x hx => ?_
    obtain ⟨k, j, hj, hx⟩ := mem_joinFindings.mp hx
    have mem := List.mem_of_getElem? hj
    rcases Join.mem_findings.mp hx with ⟨hfrom, -⟩ | ⟨hto, -⟩ | ⟨hnone, -⟩
    · rw [(h.known_source hj).isKnownTable] at hfrom
      cases hfrom
    · rw [(h.known_target mem).isKnownTable] at hto
      cases hto
    · exact (h.conditions j mem).1 hnone
  have filters (clause : FilterClause) : q.filterFindings clause = [] := by
    rw [filterFindings, List.flatMap_eq_nil_iff]
    exact fun c hc => (h.canonical_condition clause c hc).findings_eq_nil clause
  simp only [ownFindings_eq, tables, repeated, joins, filters, List.map_nil, List.nil_append,
    List.append_nil]

theorem Canonical.namesNoId (h : q.Canonical) : q.NamesNoId := by
  intro r hr x hx f
  rw [(h.composed r hr).flat.ownFindings_eq_groupFindings] at hx
  obtain rfl := eq_of_mem_groupFindings hx
  rfl

end Query

variable {σ : Type} {ids : IdSource σ} {s : σ}

theorem Statement.namesNoId_of_read {s' : σ} {t : Text} {statement : Statement}
    (hfresh : ids.Fresh [] s) (hread : (read ids t).run s = (.ok statement, s')) :
    statement.query.NamesNoId :=
  fun _ hr _ hx f => renamed_ownFinding_of_read hfresh hread f hr hx

theorem roundTrip_of_rewritten {sql : String} {d : Dialect} {q : Query} {s' : σ}
    (compare : Text → Text → List Equivalence.Difference)
    (hread : (Statement.read ids sql.toList).run s = (.ok (.ofQuery .select q), s'))
    (hsql : q.sql d = .ok sql) : roundTrip ids s compare sql d =
      .ok ⟨(compare sql.toList sql.toList).isEmpty && q.isValid, some sql,
        compare sql.toList sql.toList, q.findings.map .finding⟩ := by
  have tables : q.tables ≠ [] := by
    intro hnone
    rw [Query.sql_eq, hnone] at hsql
    cases hsql
  rw [roundTrip, hread]
  simp only [Statement.ofQuery, ne_eq, not_true_eq_false, if_false, hsql]
  rw [if_neg (by simpa using tables)]

/-- The text of a canonical query comes out of a round trip as it went in, with what is found wrong
with the query itself, whatever ids are given and however texts are compared. -/
theorem Query.Canonical.roundTrip_sql {q : Query} (h : q.Canonical) (d : Dialect) :
    ∃ sql, q.sql d = .ok sql ∧
      ∀ {σ : Type} (ids : IdSource σ) (s : σ) (compare : Text → Text → List Equivalence.Difference),
        ids.Fresh [""] s → compare sql.toList sql.toList = [] →
          roundTrip ids s compare sql d =
            .ok ⟨q.isValid, some sql, [], q.findings.map .finding⟩ := by
  obtain ⟨sql, hsql, reads⟩ := h.read_sql d
  refine ⟨sql, hsql, fun ids s compare hfresh hcompare => ?_⟩
  obtain ⟨r, s', hread, -, same⟩ := reads _ ids _ s hfresh (List.mem_singleton_self _)
  -- The query that is read has ids of its own, so what is known of it comes from its having been
  -- read.
  have nameless := Statement.namesNoId_of_read (hfresh.sublist (List.nil_sublist _)) hread
  have findings : r.findings = q.findings := findings_of_withoutIds same nameless h.namesNoId
  have rewritten : r.sql d = .ok sql := (sql_of_withoutIds same d).trans hsql
  rw [roundTrip_of_rewritten compare hread rewritten, hcompare, isValid, isValid, findings]
  rfl

end SqlCanvas
