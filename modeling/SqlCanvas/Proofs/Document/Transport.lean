import SqlCanvas.Proofs.Document.Recovery
import SqlCanvas.Proofs.Renaming.Lockstep
import SqlCanvas.Service.Endpoint

/-!
# Queries sent as documents

What one endpoint answers to a text can be given to another one as it is. No value that is read from
a text is a date or a time, so the query comes through unchanged, and what is written for it is what
would be written without the detour.
-/

namespace SqlCanvas

open Text

theorem Literal.portable_of_read {t : Text} {x : Scalar} (h : Literal.read t = .ok x) :
    x.Portable := by
  rw [Literal.read] at h
  split at h
  · cases h
    trivial
  · split at h
    · rename_i value hword
      cases h
      rw [word?] at hword
      split at hword <;> cases hword <;> trivial
    · split at h
      · obtain ⟨n, -, h⟩ := exists_of_bind_eq_ok h
        cases h
        trivial
      · split at h <;> cases h <;> trivial

theorem Filter.portable_of_readValue {operator : Option FilterOperator} {raw : Option Text}
    {x : Scalar} (h : readValue operator raw = .ok x) : x.Portable := by
  rw [readValue.eq_def] at h
  split at h
  case h_8 => exact Literal.portable_of_read h
  all_goals
    cases h
    trivial

theorem FilterCondition.StatedIn.portable {c : FilterCondition} {scope : Scope}
    (h : c.StatedIn scope) : c.Portable := by
  obtain ⟨t, h⟩ := h
  rw [Filter.readCondition] at h
  split at h
  · obtain ⟨operator, -, h⟩ := exists_of_bind_eq_ok h
    cases h
    exact ⟨trivial, trivial⟩
  · split at h
    · cases h
    · obtain ⟨value, hvalue, h⟩ := exists_of_bind_eq_ok h
      split at h
      · cases h
      · cases h
        exact ⟨Filter.portable_of_readValue hvalue, trivial⟩

theorem Statement.portable_of_read {σ : Type} {ids : IdSource σ} {s s' : σ} {sql : Text}
    {statement : Statement} (h : (read ids sql).run s = (.ok statement, s')) :
    statement.query.Portable := by
  intro q hq clause c hc
  obtain ⟨scope, stated⟩ := statedIn_of_read h hq
  exact (stated clause c hc).portable

namespace Service

/-- The outcome of writing a query in a dialect, as an answer tells it. -/
def written (d : Dialect) (q : Query) : Except String Datum :=
  match q.sql d with
  | .ok sql => .ok (.string sql)
  | .error e => .error ("Failed to generate SQL: " ++ e.message)

theorem outcome_inj {name : String} {result result' : Except String Datum}
    (h : outcome name result = outcome name result') : result = result' := by
  cases result <;> cases result' <;> cases h <;> rfl

theorem writeSql_of_load {settings : Settings} {fields : Fields} {q : Query} {name : Option String}
    {d : Dialect} (hd : resolveDialect settings name = .ok d)
    (hq : Query.load (.record fields) = .ok q) :
    writeSql settings (.record [("ir", .record fields), ("dialect", Datum.optionalString name)]) =
      .ok (outcome "sql" (written d q)) := by
  have request : queryDialectRequest "IRToSqlRequest"
      (.record [("ir", .record fields), ("dialect", Datum.optionalString name)]) =
        .ok ⟨.record fields, name⟩ := by
    cases name <;> rfl
  rw [writeSql, request]
  simp only [accept, hd, writeQuery, hq, written, bind, Except.bind]
  cases q.sql d <;> rfl

theorem exists_statement_of_readSql {sql : String} {ir : Datum}
    (h : readSql (.record [("sql", .string sql)]) = .ok (outcome "ir" (.ok ir))) :
    ∃ statement s', (Statement.read IdSource.shared sql.toList).run 1 = (.ok statement, s') ∧
      ir = statement.dump := by
  have request : sqlRequest "SqlToIRRequest" (.record [("sql", .string sql)]) = .ok ⟨sql, none⟩ :=
    rfl
  rw [readSql, request] at h
  obtain ⟨accepted, haccepted, h⟩ := exists_of_bind_eq_ok h
  cases haccepted
  obtain ⟨-, -, h⟩ := exists_of_bind_eq_ok h
  cases hread : (Statement.read IdSource.shared sql.toList).run 1 with
  | mk result s' =>
    rw [hread] at h
    cases result with
    | error e => cases outcome_inj (Except.ok.inj h)
    | ok statement =>
      cases outcome_inj (Except.ok.inj h)
      exact ⟨statement, s', rfl, rfl⟩

theorem readSql_of_read {sql : String} {statement : Statement}
    (hsql : (Text.trim sql.toList).isEmpty = false)
    (hread : ((Statement.read IdSource.shared sql.toList).run 1).1 = .ok statement) :
    readSql (.record [("sql", .string sql)]) = .ok (outcome "ir" (.ok statement.dump)) := by
  have request : sqlRequest "SqlToIRRequest" (.record [("sql", .string sql)]) = .ok ⟨sql, none⟩ :=
    rfl
  simp only [readSql, request, accept, requireSql, hsql, hread, bind, Except.bind]
  rfl

/-- The way through documents loses nothing. A query without dates and times is read back from its
document, under any spelling of the field names. And what is answered to a text, given back as a
request to write, is answered as if the query had been read from the text there and then, with
whatever ids: by the same text, or by the same reason why there is none. -/
theorem documents_lossless :
    (∀ q : Query, q.Portable →
      Query.load q.dump = .ok q ∧ ∀ f, IsSpelling f → Query.load (q.dump.respelled f) = .ok q) ∧
    ∀ (settings : Settings) (sql : String) (ir : Datum),
      readSql (.record [("sql", .string sql)]) = .ok (outcome "ir" (.ok ir)) →
      ∀ (name : Option String) (d : Dialect), resolveDialect settings name = .ok d →
      ∀ {σ : Type} (ids : IdSource σ) (s : σ), ids.Fresh [""] s →
        ∃ statement, ((Statement.read ids sql.toList).run s).1 = .ok statement ∧
          writeSql settings (.record [("ir", ir), ("dialect", Datum.optionalString name)]) =
            .ok (outcome "sql" (written d statement.query)) := by
  refine ⟨fun q h => ⟨?_, fun f hf => q.recovers hf h⟩, ?_⟩
  · have plain := Query.recovers isSpelling_id h
    rwa [Recovers, Datum.respelled_id] at plain
  · intro settings sql ir hanswer name d hd σ ids s hfresh
    obtain ⟨statement, s', hread, rfl⟩ := exists_statement_of_readSql hanswer
    obtain ⟨rename, hrename, same⟩ :=
      Statement.exists_renaming_of_read (IdSource.fresh_shared_empty 1) hfresh sql.toList
    rw [hread] at same
    refine ⟨statement.renamed rename, same, ?_⟩
    have loaded := Statement.load_respelled isSpelling_id (Statement.portable_of_read hread)
    rw [Datum.respelled_id] at loaded
    have text : written d (statement.renamed rename).query = written d statement.query := by
      rw [written, written, Statement.renamed, Query.sql_renamed_of_injective hrename.injective]
    rw [text]
    exact writeSql_of_load hd loaded

/-- A query with groups in groups, a bare condition behind `HAVING`, and another query as its
branch. -/
def nestedQuery : Query where
  __ := Query.empty
  tables := [⟨"t1", "orders", some "o", ["*"]⟩]
  filters := some ⟨.or, [.group .and [
    .condition ⟨some "t1", "total", .between, .scalar (.float (.zero true)), .int 7⟩,
    .group .or [.condition ⟨none, "state", .isIn, .list [.string "1", .int 1, .bool true, .null],
      .null⟩]]]⟩
  groupBy := some ⟨[⟨some "t1", "state"⟩],
    some (.condition ⟨none, "SUM(total)", .compare .gt, .scalar (.int 3), .null⟩)⟩
  unions :=
    some [⟨.except, { Query.empty with tables := [⟨"t2", "old", none, []⟩], limit := some 5 }⟩]

theorem portable_nestedQuery : nestedQuery.Portable := by
  intro r hr clause c hc
  obtain ⟨p, hp, rfl⟩ := Query.exists_mem_places_iff.mpr hr
  have conditions : c = ⟨some "t1", "total", .between, .scalar (.float (.zero true)), .int 7⟩ ∨
      c = ⟨none, "state", .isIn, .list [.string "1", .int 1, .bool true, .null], .null⟩ ∨
      c = ⟨none, "SUM(total)", .compare .gt, .scalar (.int 3), .null⟩ := by
    rcases List.mem_pair.mp hp with rfl | rfl <;> cases clause
    · simpa [nestedQuery, Query.conditions, FilterGroup.toNode, FilterNode.conditions,
        FilterNode.conditionsAll, or_assoc] using Or.inl hc
    · exact .inr (.inr (List.mem_singleton.mp hc))
    · cases hc
    · cases hc
  rcases conditions with rfl | rfl | rfl
  · exact ⟨trivial, trivial⟩
  · exact ⟨by simp [FilterValue.Portable, Scalar.Portable], trivial⟩
  · exact ⟨trivial, trivial⟩

/-- A filter tree under names with underscores; and a union, sent on with a dialect in another
letter case. -/
theorem documents_lossless_nested :
    Query.load (nestedQuery.dump.respelled underscored) = .ok nestedQuery ∧
    ∃ ir, readSql (.record [("sql", .string "SELECT a FROM t UNION SELECT c FROM u LIMIT 2")]) =
        .ok (outcome "ir" (.ok ir)) ∧
      writeSql (.read []) (.record [("ir", ir), ("dialect", .string "MySQL")]) =
        .ok (outcome "sql" (.ok (.string
          "SELECT t.a\nFROM t\nUNION\nSELECT u.c\nFROM u\nLIMIT 2"))) := by
  refine ⟨(documents_lossless.1 nestedQuery portable_nestedQuery).2 underscored
    isSpelling_underscored, ?_⟩
  have readable : Readable "SELECT a FROM t UNION SELECT c FROM u LIMIT 2".toList :=
    .of_short (by decide) (by decide)
  obtain ⟨statement, s', hread, -⟩ := Statement.yields_read .shared readable 1
  have answer := readSql_of_read (by decide +kernel) (congrArg Prod.fst hread)
  obtain ⟨again, hagain, sent⟩ :=
    documents_lossless.2 (.read []) _ statement.dump answer (some "MySQL") .mysql
      (by rfl) .shared 1 (IdSource.fresh_shared_empty 1)
  have text : ∃ p ∈ (Statement.read .shared
      "SELECT a FROM t UNION SELECT c FROM u LIMIT 2".toList |>.run 1).1.toOption,
        (p.query.sql .mysql).toOption =
          some "SELECT t.a\nFROM t\nUNION\nSELECT u.c\nFROM u\nLIMIT 2" := by
    decide +kernel
  refine ⟨statement.dump, answer, sent.trans ?_⟩
  obtain ⟨p, hp, hsql⟩ := text
  rw [hagain] at hp
  obtain rfl := Option.some.inj hp
  rw [written]
  cases hq : again.query.sql .mysql with
  | ok sql =>
    rw [hq] at hsql
    rw [Option.some.inj hsql]
  | error e =>
    rw [hq] at hsql
    cases hsql

end Service

end SqlCanvas
