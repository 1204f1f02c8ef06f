import SqlCanvas.Proofs.Statement.Writable
import SqlCanvas.RoundTrip

/-!
# When a round trip fails

A readable text is always read, so a round trip can only fail in writing, and its numbers are short
enough to be written. It looks at the tables of the outermost query alone before it writes, and
writing goes through the nested queries too. The trip fails just when a query with tables reaches
one without. How the two texts are compared has no part in this.
-/

namespace SqlCanvas

variable {σ : Type}

/-- The round trip with any source of ids and any comparison of texts. -/
def roundTrip (ids : IdSource σ) (s : σ) (compare : Text → Text → List Equivalence.Difference)
    (sql : String) (d : Dialect) : Except TripError TripReport :=
  match ((Statement.read ids sql.toList).run s).1 with
  | .error e => .error (.reading e)
  | .ok statement =>
    if statement.kind ≠ .select then .ok (.refused (.notReconstructed statement.kind))
    else if statement.query.tables.isEmpty then .ok (.refused .noTable)
    else
      match statement.query.sql d with
      | .error e => .error (.writing e)
      | .ok regenerated =>
        let differences := compare sql.toList regenerated.toList
        .ok ⟨differences.isEmpty && statement.query.isValid, some regenerated, differences,
          statement.query.findings.map .finding⟩

theorem checkRoundTrip_eq (sql : String) (d : Dialect) :
    checkRoundTrip sql d = roundTrip IdSource.shared 1 (Equivalence.differences d) sql d := rfl

/-- A statement that passes the guards of a round trip although a query in it has no table. -/
structure Statement.HidesEmpty (statement : Statement) : Prop where
  select : statement.kind = .select
  tables : statement.query.tables ≠ []
  nested : ∃ q, statement.query.Reaches q ∧ q.tables = []

theorem roundTrip_of_read {ids : IdSource σ} {s : σ} {sql : String} {statement : Statement}
    (compare : Text → Text → List Equivalence.Difference) (d : Dialect)
    (h : ((Statement.read ids sql.toList).run s).1 = .ok statement) :
    (roundTrip ids s compare sql d = .error (.writing .noTables) ∧ statement.HidesEmpty) ∨
      ((∃ report, roundTrip ids s compare sql d = .ok report) ∧ ¬ statement.HidesEmpty) := by
  rw [roundTrip, h]
  simp only
  split
  · rename_i hkind
    exact .inr ⟨⟨_, rfl⟩, fun hidden => hkind hidden.select⟩
  · rename_i hkind
    split
    · rename_i htables
      exact .inr ⟨⟨_, rfl⟩, fun hidden => hidden.tables (List.isEmpty_iff.mp htables)⟩
    · rename_i htables
      have hread : (Statement.read ids sql.toList).run s = (.ok statement, _) := Prod.ext h rfl
      have nested := Statement.exists_error_sql_iff_of_read hread d
      cases hsql : statement.query.sql d with
      | error e =>
        obtain rfl := Statement.eq_noTables_of_read hread hsql
        refine .inl ⟨rfl, not_not.mp hkind, ?_, nested.mp ⟨_, hsql⟩⟩
        exact fun h => htables (List.isEmpty_iff.mpr h)
      | ok regenerated =>
        refine .inr ⟨⟨_, rfl⟩, fun hidden => ?_⟩
        obtain ⟨e, he⟩ := nested.mpr hidden.nested
        rw [hsql] at he
        cases he

/-- Reading succeeds on every readable text. The trip then ends in a report, unless the statement
hides a query without tables behind a query that has some; in that case writing fails. -/
theorem roundTrip_outcome {sql : String} (h : Readable sql.toList) (ids : IdSource σ) (s : σ)
    (compare : Text → Text → List Equivalence.Difference) (d : Dialect) :
    ∃ statement, ((Statement.read ids sql.toList).run s).1 = .ok statement ∧
      (roundTrip ids s compare sql d = .error (.writing .noTables) ↔ statement.HidesEmpty) ∧
      ((∃ report, roundTrip ids s compare sql d = .ok report) ↔ ¬ statement.HidesEmpty) := by
  obtain ⟨statement, s', hread, -⟩ := Statement.yields_read ids h s
  refine ⟨statement, congrArg Prod.fst hread, ?_⟩
  rcases roundTrip_of_read compare d (congrArg Prod.fst hread) with
    ⟨hfails, hidden⟩ | ⟨⟨report, hreport⟩, hidden⟩
  · refine ⟨iff_of_true hfails hidden, iff_of_false ?_ (not_not.mpr hidden)⟩
    rintro ⟨report, hreport⟩
    rw [hfails] at hreport
    cases hreport
  · refine ⟨iff_of_false ?_ hidden, iff_of_true ⟨report, hreport⟩ hidden⟩
    rw [hreport]
    exact nofun

/-- The second operand of this union has no table, while the first one has. -/
theorem union_without_table_fails :
    Readable "SELECT a FROM t UNION SELECT 1".toList ∧
      checkRoundTrip "SELECT a FROM t UNION SELECT 1" .postgresql = .error (.writing .noTables) ∧
      ∃ statement,
      ((Statement.read IdSource.shared "SELECT a FROM t UNION SELECT 1".toList).run 1).1 =
        .ok statement ∧ statement.HidesEmpty := by
  have readable : Readable "SELECT a FROM t UNION SELECT 1".toList :=
    .of_short (by decide) (by decide)
  have fails : checkRoundTrip "SELECT a FROM t UNION SELECT 1" .postgresql =
      .error (.writing .noTables) := by
    have : (match checkRoundTrip "SELECT a FROM t UNION SELECT 1" .postgresql with
        | .error e => decide (e = .writing .noTables)
        | .ok _ => false) = true := by
      decide +kernel
    split at this
    · rename_i e he
      rw [he, of_decide_eq_true this]
    · cases this
  obtain ⟨statement, hread, hidden, -⟩ :=
    roundTrip_outcome readable IdSource.shared 1 (Equivalence.differences .postgresql) .postgresql
  exact ⟨readable, fails, statement, hread, hidden.mp fails⟩

end SqlCanvas
