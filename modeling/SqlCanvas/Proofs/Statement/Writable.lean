import SqlCanvas.Proofs.Number.Numeral
import SqlCanvas.Proofs.Statement.Reference

/-!
# Numbers that are read can be written

A whole number is read from digits that are few enough, and then it is short enough to be written:
behind an operator, where it may get a sign, and in the limits of rows. So no query in a statement
that was read fails for its numbers, and whether one is written depends on its tables alone.
-/

namespace SqlCanvas

open Text Pattern Numeral

theorem isWritable_of_readWhole {t : Text} {n : Nat} (h : readWhole t = .ok n) : IsWritable n := by
  rw [readWhole] at h
  split at h
  · rename_i short
    obtain rfl := Except.ok.inj h
    exact isWritable_value short
  · cases h

theorem Literal.isWritable_signed {n : Nat} (h : IsWritable n) (negative : Bool) :
    IsWritable (signed negative n) := by
  cases negative with
  | false => exact h
  | true => exact isWritable_neg h

theorem Literal.isWritable_of_read {t : Text} {v : Scalar} (h : read t = .ok v) :
    ∀ n ∈ v.numerals, IsWritable n := by
  rw [read] at h
  split at h
  · cases h
    exact List.forall_mem_nil _
  · split at h
    · rename_i value hword
      cases h
      rw [word?] at hword
      split at hword <;> cases hword <;> exact List.forall_mem_nil _
    · split at h
      · obtain ⟨n, hn, h⟩ := exists_of_bind_eq_ok h
        cases h
        exact List.forall_mem_singleton.mpr (isWritable_signed (isWritable_of_readWhole hn) _)
      · split at h <;> cases h <;> exact List.forall_mem_nil _

namespace Filter

theorem isWritable_of_readValue {operator : Option FilterOperator} {raw : Option Text} {v : Scalar}
    (h : readValue operator raw = .ok v) : ∀ n ∈ v.numerals, IsWritable n := by
  unfold readValue at h
  split at h
  -- The value behind most operators is a literal, and otherwise a text or nothing.
  case h_8 => exact Literal.isWritable_of_read h
  all_goals
    cases h
    exact List.forall_mem_nil _

end Filter

theorem predicateNumerals_subset {shape : PredicateShape} {value value2 : Datum} :
    predicateNumerals shape value value2 ⊆ value.numerals ++ value2.numerals := by
  cases shape with
  | bare => exact List.nil_subset _
  | range => exact List.Subset.refl _
  | membership => exact List.subset_append_left _ _
  | existence => exact List.subset_append_left _ _
  | binary => exact List.subset_append_left _ _

theorem FilterCondition.numerals_subset (c : FilterCondition) (tables : List TableRef) :
    c.numerals tables ⊆ c.value.toDatum.numerals ++ c.value2.numerals := by
  rw [numerals]
  split
  · exact predicateNumerals_subset
  · exact List.nil_subset _

theorem FilterCondition.StatedIn.isWritable {c : FilterCondition} {scope : Scope}
    (h : c.StatedIn scope) (tables : List TableRef) : ∀ n ∈ c.numerals tables, IsWritable n := by
  obtain ⟨t, h⟩ := h
  have values : ∀ n ∈ c.value.toDatum.numerals ++ c.value2.numerals, IsWritable n := by
    rw [Filter.readCondition] at h
    split at h
    · obtain ⟨operator, -, h⟩ := exists_of_bind_eq_ok h
      cases h
      exact List.forall_mem_nil _
    · split at h
      · cases h
      · obtain ⟨value, hvalue, h⟩ := exists_of_bind_eq_ok h
        split at h
        · cases h
        · cases h
          exact List.forall_mem_append.mpr ⟨Filter.isWritable_of_readValue hvalue,
            List.forall_mem_nil _⟩
  exact fun n hn => values n (c.numerals_subset tables hn)

namespace Select

/-- Both numbers of the limits can be written. -/
def RowLimits.IsWritable (limits : RowLimits) : Prop :=
  (∀ n ∈ limits.limit, Numeral.IsWritable n) ∧ ∀ n ∈ limits.offset, Numeral.IsWritable n

theorem isWritable_of_readLimit {t : Text} {limits : RowLimits} (h : readLimit t = .ok limits) :
    limits.IsWritable := by
  rw [readLimit] at h
  split at h
  · cases h
    exact ⟨nofun, nofun⟩
  · split at h
    · obtain ⟨offset, hoffset, h⟩ := exists_of_bind_eq_ok h
      obtain ⟨limit, hlimit, h⟩ := exists_of_bind_eq_ok h
      cases h
      constructor
      · simpa using isWritable_of_readWhole hlimit
      · simpa using isWritable_of_readWhole hoffset
    · obtain ⟨limit, hlimit, h⟩ := exists_of_bind_eq_ok h
      cases h
      exact ⟨by simpa using isWritable_of_readWhole hlimit, nofun⟩

theorem isWritable_of_readNumber? {p : Pattern} {t : Text} {found : Option Nat}
    (h : readNumber? p t = .ok found) : ∀ n ∈ found, Numeral.IsWritable n := by
  rw [readNumber?] at h
  split at h
  · cases h
    exact nofun
  · obtain ⟨n, hn, h⟩ := exists_of_bind_eq_ok h
    cases h
    simpa using isWritable_of_readWhole hn

theorem isWritable_of_readRowLimits {clauses : Clauses} {limits : RowLimits}
    (h : readRowLimits clauses = .ok limits) : limits.IsWritable := by
  obtain ⟨first, hfirst, h⟩ := exists_of_bind_eq_ok h
  obtain ⟨offset, hoffset, h⟩ := exists_of_bind_eq_ok h
  obtain ⟨hlimit, hbefore⟩ := isWritable_of_readLimit hfirst
  have offsets : ∀ n ∈ offset.or first.offset, Numeral.IsWritable n := by
    intro n hn
    rcases Option.or_eq_some_iff.mp hn with hn | ⟨-, hn⟩
    · exact isWritable_of_readNumber? hoffset n hn
    · exact hbefore n hn
  cases hl : first.limit with
  | some limit =>
    simp only [hl] at h
    cases h
    exact ⟨fun n hn => hlimit n (hl.trans hn), offsets⟩
  | none =>
    simp only [hl] at h
    obtain ⟨rows, hrows, h⟩ := exists_of_bind_eq_ok h
    cases h
    exact ⟨isWritable_of_readNumber? hrows, offsets⟩

theorem isWritable_of_read {σ : Type} {ids : IdSource σ} {t : Text} {s s' : σ} {q : Query}
    (hread : (read ids t).run s = (.ok q, s')) : RowLimits.IsWritable ⟨q.limit, q.offset⟩ := by
  obtain ⟨anchored, s₁, -, hread⟩ := Reading.exists_of_run_bind hread
  obtain ⟨sources, s₂, -, hread⟩ := Reading.exists_of_run_bind hread
  obtain ⟨hrest, -⟩ := Prod.mk.inj hread
  obtain ⟨columnsText, rest, hparts, rfl⟩ := readRest_cases hrest
  obtain ⟨columns, -, hparts⟩ := exists_of_bind_eq_ok hparts
  obtain ⟨filters, -, hparts⟩ := exists_of_bind_eq_ok hparts
  obtain ⟨having, -, hparts⟩ := exists_of_bind_eq_ok hparts
  obtain ⟨limits, hlimits, hparts⟩ := exists_of_bind_eq_ok hparts
  cases hparts
  exact isWritable_of_readRowLimits hlimits

theorem RowLimits.IsWritable.numerals {limits : RowLimits} (h : limits.IsWritable) {limit : Nat}
    (hl : limits.limit = some limit) (d : Dialect) :
    ∀ n ∈ d.numerals limit (limits.offset.map Int.ofNat), Numeral.IsWritable n := by
  have short := h.1 limit hl
  have zero : Numeral.IsWritable 0 := by decide
  cases ho : limits.offset with
  | none => cases d <;> simp [Dialect.numerals, short, zero]
  | some offset =>
    have := h.2 offset ho
    cases d <;> simp [Dialect.numerals, Option.filter, short, this]

end Select

/-- The numbers of a query by itself are those of its conditions and of its limits. -/
theorem Query.isWritable_of_mem_numerals (q : Query)
    (conditions : ∀ clause, ∀ c ∈ q.conditions clause, ∀ n ∈ c.numerals q.tables, IsWritable n)
    (limits : Select.RowLimits.IsWritable ⟨q.limit, q.offset⟩) (d : Dialect) :
    ∀ n ∈ q.numerals d, IsWritable n := by
  intro n hn
  rw [numerals_eq] at hn
  rcases List.mem_append.mp hn with hn | hn
  · obtain ⟨c, hc, hn⟩ := List.mem_flatMap.mp hn
    rcases List.mem_append.mp hc with hc | hc
    · exact conditions _ c hc n hn
    · exact conditions _ c hc n hn
  · rw [limitNumerals] at hn
    cases hl : q.limit with
    | none =>
      rw [hl] at hn
      cases hn
    | some limit =>
      rw [hl] at hn
      exact limits.numerals hl d n hn

theorem Select.numerals_of_read {σ : Type} {ids : IdSource σ} {t : Text} {s s' : σ} {q : Query}
    (hread : (read ids t).run s = (.ok q, s')) (d : Dialect) :
    ∀ n ∈ q.numerals d, Numeral.IsWritable n := by
  obtain ⟨scope, stated⟩ := statedIn_read hread
  exact q.isWritable_of_mem_numerals (fun clause c hc => (stated clause c hc).isWritable _)
    (isWritable_of_read hread) d

namespace Statement

variable {σ : Type} {ids : IdSource σ} {s s' : σ} {t : Text} {p : Statement}

theorem limits_of_read (hread : (read ids t).run s = (.ok p, s')) {q : Query}
    (hq : p.query.Reaches q) : Select.RowLimits.IsWritable ⟨q.limit, q.offset⟩ := by
  refine (reached_of_ofOutline (I := fun _ => True)
    (P := fun q => Select.RowLimits.IsWritable ⟨q.limit, q.offset⟩) (fun _ hown => ?_)
    (fun hchange ctes => ?_) trivial hread).2 q hq
  · have own := Select.isWritable_of_read hown
    exact ⟨trivial, fun _ _ => own⟩
  · obtain ⟨text, filter, -, hquery⟩ := Change.exists_filter_of_read hchange
    rw [hquery]
    exact ⟨nofun, nofun⟩

theorem numeralsWritable_of_read (hread : (read ids t).run s = (.ok p, s')) (d : Dialect) :
    p.query.NumeralsWritable d := by
  intro q hq
  obtain ⟨scope, stated⟩ := statedIn_of_read hread hq
  exact q.isWritable_of_mem_numerals (fun clause c hc => (stated clause c hc).isWritable _)
    (limits_of_read hread hq) d

/-- A statement that was read is written unless a query in it has no tables. -/
theorem exists_error_sql_iff_of_read (hread : (read ids t).run s = (.ok p, s')) (d : Dialect) :
    (∃ e, p.query.sql d = .error e) ↔ ∃ q, p.query.Reaches q ∧ q.tables = [] := by
  rw [Query.exists_error_sql_iff, or_iff_left]
  exact not_not.mpr (numeralsWritable_of_read hread d)

theorem eq_noTables_of_read (hread : (read ids t).run s = (.ok p, s')) {d : Dialect}
    {e : GenerationError} (h : p.query.sql d = .error e) : e = .noTables := by
  cases e with
  | noTables => rfl
  | numeralTooLong =>
    exact absurd (numeralsWritable_of_read hread d) (Query.not_numeralsWritable_of_error h)

end Statement

end SqlCanvas
